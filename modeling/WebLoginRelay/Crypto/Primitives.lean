import WebLoginRelay.Constants
import WebLoginRelay.Crates

/-!
# Encodings, hashes and encryption at rest

`src/crypto/base64url.rs`, `src/crypto/at_rest.rs` and `src/crypto/subject.rs`. Random bytes are
arguments: the caller draws them. `decrypt_encrypt` and `derivePairwiseSub_inj` are what the rest of
the development uses of encryption and of the subject derivation.
-/

namespace WebLoginRelay
open Text

/-- `RelayError::problem`, as a result. -/
def fail {α} (code : ProblemCode) : Except RelayError α := .error (.problem code)

/-- A sequence succeeds when its parts do. -/
lemma bind_ok {α β} {x : Except RelayError α} {f : α → Except RelayError β} {b : β}
    (h : (x >>= f) = .ok b) : ∃ a, x = .ok a ∧ f a = .ok b := by
  cases x with
  | ok a => exact ⟨a, rfl, h⟩
  | error e => nomatch h

/-- A sequence goes on after a check that does not fail. -/
lemma guard_ok {α} {c : Prop} [Decidable c] {code : ProblemCode} {k : PUnit → Except RelayError α} {a : α}
    (h : (if c then fail code >>= k else k ⟨⟩) = .ok a) : ¬ c ∧ k ⟨⟩ = .ok a := by
  split at h
  · nomatch h
  · rename_i nc
    exact ⟨nc, h⟩

@[simp] lemma ok_bind {α β} (a : α) (f : α → Except RelayError β) :
    ((.ok a : Except RelayError α) >>= f) = f a := rfl

namespace Base64url
variable (X : Crates)

/-- `base64url::encode`. -/
def encode (b : Bytes) : String := X.base64Encode b

/-- `base64url::decode`: no padding, and only characters of the alphabet. -/
def decode (value : String) : Except RelayError Bytes :=
  if (asBytes value).any (· == '='.toUInt8) then fail .invalidRequest
  else if !(asBytes value).all fun b =>
      ('0'.toUInt8 ≤ b && b ≤ '9'.toUInt8) || ('A'.toUInt8 ≤ b && b ≤ 'Z'.toUInt8)
        || ('a'.toUInt8 ≤ b && b ≤ 'z'.toUInt8) || b == '-'.toUInt8 || b == '_'.toUInt8 then
    fail .invalidRequest
  else
    match X.base64Decode value with
    | some b => .ok b
    | none => fail .invalidRequest

end Base64url

/-- `NONCE_LEN`. -/
def nonceLen : Nat := 12

/-- `AtRestKey::encrypt`, with the nonce the caller drew. -/
def encrypt (X : Crates) (key nonce plaintext : Bytes) : Except RelayError Bytes :=
  match X.aesGcmEncrypt key nonce plaintext with
  | some ciphertext => .ok (nonce ++ ciphertext)
  | none => fail .internalError

/-- `AtRestKey::decrypt`. -/
def decrypt (X : Crates) (key blob : Bytes) : Except RelayError Bytes :=
  if blob.length ≤ nonceLen then fail .internalError
  else
    match X.aesGcmDecrypt key (blob.take nonceLen) (blob.drop nonceLen) with
    | some plaintext => .ok plaintext
    | none => fail .internalError

/-- `AtRestKey::decrypt` undoes `AtRestKey::encrypt`. -/
lemma decrypt_encrypt {X : Crates} (aead : X.AeadCorrect) {key nonce m c : Bytes}
    (hn : nonce.length = nonceLen) (h : encrypt X key nonce m = .ok c) : decrypt X key c = .ok m := by
  unfold encrypt at h
  split at h
  · rename_i c0 e
    cases h
    obtain ⟨d, ne⟩ := aead key nonce m c0 e
    have pos : 0 < c0.length := List.length_pos_of_ne_nil ne
    have long : ¬ (nonce ++ c0).length ≤ nonceLen := by
      rw [List.length_append, hn]; omega
    rw [decrypt, if_neg long, ← hn, List.take_left, List.drop_left, d]
  · cases h

/-- `keyed_hash`. -/
def keyedHash (X : Crates) (pepper data : Bytes) : Bytes := X.hmacSha256 pepper data

/-- `u32::to_be_bytes` of a truncating cast. -/
def u32be (n : Nat) : Bytes :=
  [UInt8.ofNat (n / 16777216), UInt8.ofNat (n / 65536), UInt8.ofNat (n / 256), UInt8.ofNat n]

/-- The bytes `derive_pairwise_sub` feeds to the HMAC. -/
def subjectMessage (domain userId : String) : Bytes :=
  subjectContext ++ u32be (len domain) ++ asBytes domain ++ u32be (len userId) ++ asBytes userId

/-- `derive_pairwise_sub`. -/
def derivePairwiseSub (X : Crates) (secret : Bytes) (domain userId : String) :
    Except RelayError String :=
  if secret.length < 32 then fail .internalError
  else
    let sub := Base64url.encode X (X.hmacSha256 secret (subjectMessage domain userId))
    if len sub ≠ 43 then fail .internalError else .ok sub

/-- Within a domain the hashed bytes determine the user. -/
lemma subjectMessage_inj {domain u v : String} (h : subjectMessage domain u = subjectMessage domain v) :
    u = v := by
  simp only [subjectMessage, List.append_assoc] at h
  have h' := List.append_cancel_left (List.append_cancel_left (List.append_cancel_left h))
  exact asBytes_inj (List.append_inj_right h' rfl)

/-- A derived subject is the encoded HMAC. -/
lemma derivePairwiseSub_eq {X : Crates} {secret domain u sub}
    (h : derivePairwiseSub X secret domain u = .ok sub) :
    sub = Base64url.encode X (X.hmacSha256 secret (subjectMessage domain u)) := by
  simp only [derivePairwiseSub] at h
  split at h
  · cases h
  · split at h
    · cases h
    · exact (Except.ok.inj h).symm

/-- Within a domain the subject determines the user. -/
lemma derivePairwiseSub_inj {X : Crates} (hmac : X.HmacCollisionFree) (b64 : X.Base64Correct)
    {secret domain u v sub} (hu : derivePairwiseSub X secret domain u = .ok sub)
    (hv : derivePairwiseSub X secret domain v = .ok sub) : u = v := by
  have e := (derivePairwiseSub_eq hu).symm.trans (derivePairwiseSub_eq hv)
  exact subjectMessage_inj (hmac _ _ _ (b64.inj e))

end WebLoginRelay
