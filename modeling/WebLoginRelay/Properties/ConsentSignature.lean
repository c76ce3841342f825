import WebLoginRelay.Samples.Runs

/-!
# Which consent signatures are accepted

A signature is `r || s` of 64 bytes, and the relay takes one whose first byte is the tag of a DER sequence
for a DER signature. One in 256 signatures of a phone begins so.
-/

namespace WebLoginRelay
open Text

variable {X : Crates} {keyId signature : String} {message : Bytes}

/-- The key id is `did:key:z` and a base58btc text of the multicodec tag and this compressed point. -/
def IsKeyOf (X : Crates) (keyId : String) (point : Bytes) : Prop :=
  ∃ text, keyId = "did:key:z" ++ text ∧ X.bs58Decode text = some (0x80 :: 0x24 :: point) ∧
    point.length = 33 ∧ (point.head? = some 0x02 ∨ point.head? = some 0x03) ∧ X.p256Key point

/-- The signature is the base64url text of 64 bytes `r || s` that verify under the key. -/
def IsSignatureOf (X : Crates) (point message : Bytes) (signature : String) (raw : Bytes) : Prop :=
  signature = X.base64Encode raw ∧ raw.length = 64 ∧ X.p256Signature raw ∧
    X.p256Verify point (X.sha256 message) raw

/-- The key id and the signature are what the protocol asks for. -/
def SignedBy (X : Crates) (keyId : String) (message : Bytes) (signature : String) : Prop :=
  ∃ point raw, IsKeyOf X keyId point ∧ IsSignatureOf X point message signature raw

/-- Base64 text without padding is canonical: no two texts have the same bytes. -/
def Crates.Base64Canonical (X : Crates) : Prop := ∀ s b, X.base64Decode s = some b → X.base64Encode b = s

/-- `base64url::decode` accepts the texts of bytes. -/
lemma Base64url.decode_iff (b64 : X.Base64Correct) (shape : X.Base64Shape) (canonical : X.Base64Canonical)
    {s : String} {b : Bytes} : Base64url.decode X s = .ok b ↔ s = X.base64Encode b := by
  constructor
  · intro h
    unfold Base64url.decode at h
    split at h
    · nomatch h
    · split at h
      · nomatch h
      · split at h
        · rename_i b' e
          cases h
          exact (canonical s b e).symm
        · nomatch h
  · rintro rfl
    exact Base64url.decode_encode b64 shape b

/-- `decode_p256_did_key` accepts the key ids of points. -/
lemma P256.decodeDidKey_iff {point : Bytes} :
    P256.decodeDidKey X keyId = .ok point ↔ IsKeyOf X keyId point := by
  constructor
  · intro h
    unfold P256.decodeDidKey at h
    split at h
    · nomatch h
    rename_i text prefixed
    split at h
    · nomatch h
    rename_i decoded dec
    split at h
    · nomatch h
    rename_i shape
    split at h
    · nomatch h
    rename_i tag
    split at h
    · rename_i key
      cases h
      simp only [not_or, not_not] at shape
      obtain ⟨length, first, second⟩ := shape
      obtain ⟨rest, rfl⟩ : ∃ rest, decoded = 0x80 :: 0x24 :: rest := by
        match decoded, first, second with
        | a :: b :: rest, first, second =>
          cases Option.some.inj first
          cases Option.some.inj second
          exact ⟨rest, rfl⟩
      refine ⟨text, stripPrefix_eq_some.mp prefixed, dec, Nat.succ.inj (Nat.succ.inj length), ?_, key⟩
      rw [not_and_or, not_not, not_not] at tag
      simpa [List.head?_eq_getElem?] using tag
    · nomatch h
  · rintro ⟨text, rfl, dec, length, tag, key⟩
    have key' : X.p256Key (List.drop 2 (0x80 :: 0x24 :: point)) := key
    unfold P256.decodeDidKey
    simp only [stripPrefix_append, dec]
    rw [if_neg (by simp [length]), if_neg, if_pos key']
    · rfl
    · rw [List.head?_eq_getElem?] at tag
      rintro ⟨two, three⟩
      exact tag.elim two three

/-- `verify_consent_signature` accepts a valid signature that does not look like DER. -/
lemma P256.verifyConsentSignature_iff (b64 : X.Base64Correct) (shape : X.Base64Shape)
    (canonical : X.Base64Canonical) : P256.verifyConsentSignature X keyId message signature = .ok () ↔
      ∃ point raw, IsKeyOf X keyId point ∧ IsSignatureOf X point message signature raw ∧
        raw.head? ≠ some 0x30 := by
  constructor
  · intro h
    obtain ⟨point, key, h⟩ := bind_ok h
    obtain ⟨raw, dec, h⟩ := bind_ok h
    rw [Base64url.decode_iff b64 shape canonical] at dec
    split at h
    · nomatch h
    rename_i length
    split at h
    · nomatch h
    rename_i der
    split at h
    · nomatch h
    rename_i scalars
    split at h
    · rename_i verified
      refine ⟨point, raw, decodeDidKey_iff.mp key, ⟨dec, not_not.mp length, by simpa using scalars, verified⟩, ?_⟩
      simpa [looksLikeDer] using der
    · nomatch h
  · rintro ⟨point, raw, key, ⟨dec, length, scalars, verified⟩, der⟩
    unfold P256.verifyConsentSignature
    rw [decodeDidKey_iff.mpr key, ok_bind, (Base64url.decode_iff b64 shape canonical).mpr dec, ok_bind,
      if_neg (not_not.mpr length), if_neg (by simpa [looksLikeDer] using der), if_neg (by simp [scalars]),
      if_pos verified]
    rfl

/-- The bytes of a valid signature are determined by its text. -/
lemma IsSignatureOf.raw_eq (b64 : X.Base64Correct) {point point' raw raw' : Bytes}
    (h : IsSignatureOf X point message signature raw) (h' : IsSignatureOf X point' message signature raw') :
    raw = raw' :=
  b64.inj (h.1.symm.trans h'.1)

/-- The relay accepts exactly the valid signatures, unless the valid signature begins with the tag of a DER
sequence. -/
theorem verifies_exactly_iff (b64 : X.Base64Correct) (shape : X.Base64Shape)
    (canonical : X.Base64Canonical) (keyId signature : String) (message : Bytes) :
    (P256.verifyConsentSignature X keyId message signature = .ok () ↔ SignedBy X keyId message signature) ↔
      ¬ ∃ point raw, IsKeyOf X keyId point ∧ IsSignatureOf X point message signature raw ∧
        raw.head? = some 0x30 := by
  rw [P256.verifyConsentSignature_iff b64 shape canonical]
  constructor
  · rintro h ⟨point, raw, key, valid, der⟩
    obtain ⟨_, raw', _, valid', ne⟩ := h.mpr ⟨point, raw, key, valid⟩
    exact ne (valid.raw_eq b64 valid' ▸ der)
  · intro none
    constructor
    · rintro ⟨point, raw, key, valid, _⟩
      exact ⟨point, raw, key, valid⟩
    · rintro ⟨point, raw, key, valid⟩
      exact ⟨point, raw, key, valid, fun der => none ⟨point, raw, key, valid, der⟩⟩

/-- The stubs decode canonical texts only. -/
lemma Crates.stub_canonical : Crates.stub.Base64Canonical := fun _ _ => Text.Base64url.encode_decode

/-- The relay accepts the signature of a phone exactly as it is valid. -/
theorem verifies_exactly_phone :
    P256.verifyConsentSignature .stub Sample.phoneId [] (Sample.phoneSign []) = .ok () ∧
      SignedBy .stub Sample.phoneId [] (Sample.phoneSign []) := by
  have ok := Sample.verify_phoneSign []
  obtain ⟨_, raw, _, valid, ne⟩ := (P256.verifyConsentSignature_iff Crates.stub_base64
    Crates.stub_base64Shape Crates.stub_canonical).mp ok
  have agrees := (verifies_exactly_iff Crates.stub_base64 Crates.stub_base64Shape Crates.stub_canonical
    Sample.phoneId (Sample.phoneSign []) []).mpr fun ⟨_, _, _, valid', der⟩ =>
      ne (valid'.raw_eq Crates.stub_base64 valid ▸ der)
  exact ⟨ok, agrees.mp ok⟩

/-- Crates under which the signatures of a phone begin with the tag of a DER sequence. -/
def Crates.derLike : Crates :=
  { Crates.stub with p256Verify := fun key digest raw => raw == Stub.fit 64 (0x30 :: key ++ digest) }

/-- A valid signature that begins with the tag of a DER sequence is refused. -/
theorem der_like_signature_refused : ¬ ∀ X : Crates, X.Base64Correct → X.Base64Shape →
    X.Base64Canonical → ∀ keyId signature message,
      (P256.verifyConsentSignature X keyId message signature = .ok () ↔
        SignedBy X keyId message signature) := by
  intro claim
  have agrees := claim .derLike Crates.stub_base64 Crates.stub_base64Shape Crates.stub_canonical
  obtain ⟨point, key⟩ : ∃ point, P256.decodeDidKey .derLike Sample.phoneId = .ok point :=
    ⟨(P256.decodeDidKey .derLike Sample.phoneId).toOption.getD [], by decide +kernel⟩
  let raw := Stub.fit 64 (0x30 :: point ++ Crates.derLike.sha256 [])
  have valid : IsSignatureOf .derLike point [] (Crates.derLike.base64Encode raw) raw :=
    ⟨rfl, Stub.length_fit .., by simp [Crates.derLike, Crates.stub, raw, Stub.length_fit],
      by simp [Crates.derLike, raw]⟩
  have ok := (agrees Sample.phoneId _ []).mpr ⟨point, raw, P256.decodeDidKey_iff.mp key, valid⟩
  obtain ⟨_, raw', _, valid', ne⟩ := (P256.verifyConsentSignature_iff (X := .derLike) Crates.stub_base64
    Crates.stub_base64Shape Crates.stub_canonical).mp ok
  exact ne (by rw [← valid.raw_eq Crates.stub_base64 valid']; rfl)

end WebLoginRelay
