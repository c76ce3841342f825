import WebLoginRelay.Samples.Runs

/-!
# Pairwise subjects

The bytes of which a subject is the HMAC determine the domain and the user. A domain is shorter than 256
bytes, so the last byte of its truncated length is the length.
-/

namespace WebLoginRelay
open Text

/-- A short length is the last byte of its four. -/
lemma u32be_inj {n m : Nat} (hn : n < 256) (hm : m < 256) (h : u32be n = u32be m) : n = m := by
  simp only [u32be, List.cons.injEq, and_true] at h
  have last : (UInt8.ofNat n).toNat = (UInt8.ofNat m).toNat := congrArg UInt8.toNat h.2.2.2
  rw [UInt8.toNat_ofNat', UInt8.toNat_ofNat'] at last
  omega

/-- Under accepted domains the hashed bytes determine the domain. -/
lemma subjectMessage_domain {domain domain' u u' : String} (hd : validateDomain domain = .ok ())
    (hd' : validateDomain domain' = .ok ()) (h : subjectMessage domain u = subjectMessage domain' u') :
    domain = domain' := by
  have short := len_of_validateDomain hd
  have short' := len_of_validateDomain hd'
  simp only [subjectMessage, List.append_assoc] at h
  obtain ⟨lengths, rest⟩ := List.append_inj (List.append_cancel_left h) rfl
  have same : len domain = len domain' := by
    unfold maxDomain at short short'
    exact u32be_inj (by omega) (by omega) lengths
  apply asBytes_inj
  exact List.append_inj_left rest same

/-- A subject identifies exactly one domain and user, and is an account id of 43 characters. -/
theorem subject_identifies_pair {X : Crates} (hmac : X.HmacCollisionFree) (b64 : X.Base64Correct)
    (shape : X.Base64Shape) {domain domain' : String} (hd : validateDomain domain = .ok ())
    (hd' : validateDomain domain' = .ok ()) (u u' : String) :
    (subjectMessage domain u = subjectMessage domain' u' ↔ domain = domain' ∧ u = u') ∧
    (∀ secret sub sub', derivePairwiseSub X secret domain u = .ok sub →
      derivePairwiseSub X secret domain' u' = .ok sub' → (sub = sub' ↔ domain = domain' ∧ u = u')) ∧
    (∀ secret sub, derivePairwiseSub X secret domain u = .ok sub →
      sub.length = 43 ∧ (∀ c ∈ sub.toList, isUrlSafe c) ∧ validateSiteAccountId sub = .ok ()) := by
  have messages : subjectMessage domain u = subjectMessage domain' u' ↔ domain = domain' ∧ u = u' := by
    constructor
    · intro h
      obtain rfl := subjectMessage_domain hd hd' h
      exact ⟨rfl, subjectMessage_inj h⟩
    · rintro ⟨rfl, rfl⟩
      rfl
  refine ⟨messages, ?_, ?_⟩
  · intro secret sub sub' h h'
    rw [derivePairwiseSub_eq h, derivePairwiseSub_eq h', ← messages]
    constructor
    · intro e
      exact hmac _ _ _ (b64.inj e)
    · intro e
      rw [e]
  · intro secret sub h
    obtain ⟨length, safe⟩ := derivePairwiseSub_shape shape h
    exact ⟨length, safe, validateSiteAccountId_iff.mpr ⟨by omega, by omega, safe⟩⟩

/-- The subjects of two users of one site, and of two sites. -/
theorem subject_identifies_alice :
    subjectMessage "a.io" "@a:h" ≠ subjectMessage "a.io" "@b:h" ∧
      subjectMessage "a.io" "@a:h" ≠ subjectMessage "b.io" "@a:h" := by
  have a := Sample.alice_valid.domain
  have b : validateDomain "b.io" = .ok () := by decide +kernel
  constructor
  · intro h
    have pair := (subject_identifies_pair Crates.stub_hmac Crates.stub_base64 Crates.stub_base64Shape a a
      "@a:h" "@b:h").1.mp h
    exact absurd pair.2 (by decide)
  · intro h
    have pair := (subject_identifies_pair Crates.stub_hmac Crates.stub_base64 Crates.stub_base64Shape a b
      "@a:h" "@a:h").1.mp h
    exact absurd pair.1 (by decide)

end WebLoginRelay
