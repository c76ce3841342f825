import WebLoginRelay.Crypto.CanonicalText
import WebLoginRelay.Samples.Runs

/-!
# Signed bytes

What a signature covers. The canonical text of an object of scalars determines its fields, so that no
character of a field can move into another one, and objects with other keys have other texts, so that a
signature over a message of one type is not one over a message of another type.
-/

namespace WebLoginRelay
open Text

namespace Jcs
variable {X : Crates} {fields fields' : List (String × Value)}

/-- The printed fields of an object are separated by commas. -/
lemma printFields_eq (fields : List (String × Value)) :
    JsonText.printFields fields = [','].intercalate (fields.map fieldText) := by
  induction fields with
  | nil => rfl
  | cons f fields ih =>
    cases fields with
    | nil => simp [JsonText.printFields, fieldText, List.intercalate]
    | cons g fields =>
      rw [JsonText.printFields, ih, List.map_cons (l := g :: fields)]
      · simp [fieldText, List.intercalate]
      · intro h
        cases h

/-- The canonical text is the printed text of the sorted object. -/
lemma writeObject_eq (escapes : X.JsonEscapes) (flat : ∀ f ∈ fields, f.2.isScalar) :
    writeValue X (.obj fields) = String.ofList (JsonText.print (.obj (sortFields fields))) := by
  rw [← String.toList_inj, toList_writeObject escapes flat, String.toList_ofList, JsonText.print, printFields_eq]

/-- An object of scalars with distinct keys. -/
structure IsFlat (fields : List (String × Value)) : Prop where
  keys : (fields.map Prod.fst).Nodup
  scalars : ∀ f ∈ fields, f.2.isScalar

/-- Sorting keeps it so. -/
lemma IsFlat.sort (flat : IsFlat fields) : IsFlat (sortFields fields) where
  keys := ((sortFields_perm fields).map Prod.fst).nodup_iff.mpr flat.keys
  scalars f mem := flat.scalars f ((sortFields_perm fields).mem_iff.mp mem)

/-- The canonical text determines the fields. -/
lemma canonical_perm (escapes : X.JsonEscapes) (flat : IsFlat fields) (flat' : IsFlat fields')
    (e : writeValue X (.obj fields) = writeValue X (.obj fields')) : fields.Perm fields' := by
  have parsed : (sortFields fields).map (fun f => (f.1, Json.ofScalar f.2)) =
      (sortFields fields').map (fun f => (f.1, Json.ofScalar f.2)) := by
    rw [writeObject_eq escapes flat.scalars, writeObject_eq escapes flat'.scalars] at e
    have h := JsonText.parse_print flat.sort.scalars
    rw [e, JsonText.parse_print flat'.sort.scalars] at h
    exact (Json.obj.inj (Prod.mk.inj (Option.some.inj h)).1).symm
  have sorted : sortFields fields = sortFields fields' := by
    have h := congrArg (Json.strictMap []) parsed
    rw [Json.strictMap_ofScalar flat.sort.keys (fun _ _ => List.not_mem_nil) flat.sort.scalars,
      Json.strictMap_ofScalar flat'.sort.keys (fun _ _ => List.not_mem_nil) flat'.sort.scalars] at h
    exact Option.some.inj h
  exact (sortFields_perm fields).symm.trans (sorted ▸ sortFields_perm fields')

/-- With the keys in the same order the fields are the same. -/
lemma eq_of_perm (nodup : (fields.map Prod.fst).Nodup) (perm : fields.Perm fields')
    (keys : fields.map Prod.fst = fields'.map Prod.fst) : fields = fields' := by
  induction fields generalizing fields' with
  | nil => exact (List.nil_perm.mp perm).symm
  | cons f fields ih =>
    cases fields' with
    | nil => nomatch keys
    | cons f' fields' =>
      obtain ⟨key, rest⟩ := List.cons.inj keys
      obtain ⟨new, nodup⟩ := List.nodup_cons.mp nodup
      obtain rfl : f = f' := by
        obtain e | mem := List.mem_cons.mp (perm.mem_iff.mp List.mem_cons_self)
        · exact e
        · rw [rest] at new
          exact absurd (List.mem_map_of_mem mem) new
      rw [ih nodup perm.cons_inv rest]

end Jcs

/-- What is signed: by the phone, by a site, and by the relay. -/
inductive Signable where
  | consent (approved : Bool) (challenge : String) (displayName : Option String) (nonce sessionId : String)
    (sentAt : Int64)
  | metadata (m : SiteMetadata)
  | qr (r : RegistrationRequest)
  | registration (r : RegistrationRequest)
  | assertion (a : RelayAssertion)
  | revocation (r : RelayRevocation)

namespace Signable
variable {X : Crates}

/-- The fields that are signed. -/
def fields : Signable → List (String × Value)
  | .consent approved challenge none nonce sessionId sentAt =>
    [("approved", .bool approved), ("challenge", .str challenge), ("nonce", .str nonce),
      ("sessionId", .str sessionId), ("sentAt", .int sentAt)]
  | .consent approved challenge (some name) nonce sessionId sentAt =>
    [("approved", .bool approved), ("challenge", .str challenge), ("nonce", .str nonce),
      ("sessionId", .str sessionId), ("sentAt", .int sentAt), ("displayName", .str name)]
  | .metadata m =>
    [("displayName", .str m.displayName), ("domain", .str m.domain), ("publicKey", .str m.publicKey),
      ("version", .int m.version)]
  | .qr r =>
    [("domain", .str r.domain), ("exp", .int r.exp), ("iat", .int r.iat), ("nonce", .str r.nonce),
      ("session", .str r.sessionId), ("v", .int r.version)]
  | .registration r =>
    [("domain", .str r.domain), ("exp", .int r.exp), ("iat", .int r.iat), ("nonce", .str r.nonce),
      ("qrSignature", .str r.qrSignature), ("requestedDisplayName", .str r.requestedDisplayName),
      ("sessionId", .str r.sessionId), ("version", .int r.version)]
  | .assertion a =>
    [("aud", .str a.aud), ("displayName", .str a.displayName), ("exp", .int a.exp),
      ("iat", .int a.iat), ("iss", .str a.iss), ("jti", .str a.jti), ("kid", .str a.kid),
      ("nbf", .int a.nbf), ("nonce", .str a.nonce), ("sessionId", .str a.sessionId),
      ("sub", .str a.sub), ("subjectKeyVersion", .int a.subjectKeyVersion.toInt64),
      ("version", .int a.version)]
  | .revocation r =>
    [("aud", .str r.aud), ("iat", .int r.iat), ("iss", .str r.iss), ("jti", .str r.jti),
      ("kid", .str r.kid), ("reason", .str r.reason), ("sub", .str r.sub), ("version", .int r.version)]

/-- The bytes the code signs or verifies. -/
def bytes (X : Crates) : Signable → Except RelayError Bytes
  | .consent approved challenge displayName nonce sessionId sentAt =>
    consentSignedBytes X approved challenge displayName nonce sessionId sentAt
  | .metadata m => asBytes <$> Jcs.canonicalizeObject X
    [("displayName", .str m.displayName), ("domain", .str m.domain), ("publicKey", .str m.publicKey),
      ("version", .int m.version)]
  | .qr r => r.qrCanonical X
  | .registration r => r.registrationCanonical X
  | .assertion a => asBytes <$> a.canonicalWithoutSignature X
  | .revocation r => asBytes <$> r.canonicalWithoutSignature X

/-- Two messages of one type that say the same. Signatures are left out, unless they are signed themselves. -/
def Same : Signable → Signable → Prop
  | .consent approved challenge displayName nonce sessionId sentAt,
      .consent approved' challenge' displayName' nonce' sessionId' sentAt' =>
    approved = approved' ∧ challenge = challenge' ∧ displayName = displayName' ∧ nonce = nonce' ∧
      sessionId = sessionId' ∧ sentAt = sentAt'
  | .metadata m, .metadata m' => m' = { m with signature := m'.signature }
  | .qr r, .qr r' => r.version = r'.version ∧ r.domain = r'.domain ∧ r.sessionId = r'.sessionId ∧
    r.nonce = r'.nonce ∧ r.iat = r'.iat ∧ r.exp = r'.exp
  | .registration r, .registration r' => r' = { r with registrationSignature := r'.registrationSignature }
  | .assertion a, .assertion a' => a' = { a with signature := a'.signature }
  | .revocation r, .revocation r' => r' = { r with signature := r'.signature }
  | _, _ => False

/-- The fields of a message are scalars with distinct keys. -/
lemma isFlat (M : Signable) : Jcs.IsFlat M.fields := by
  cases M with
  | consent approved challenge displayName nonce sessionId sentAt =>
    cases displayName <;> exact ⟨by simp [fields], by simp [fields]⟩
  | _ => exact ⟨by simp [fields], by simp [fields]⟩

/-- What is signed is the canonical text of the fields. -/
lemma bytes_eq (M : Signable) : M.bytes X = .ok (asBytes (Jcs.writeValue X (.obj M.fields))) := by
  have ok : Jcs.canonicalizeObject X M.fields = .ok (Jcs.writeValue X (.obj M.fields)) := if_pos M.isFlat.keys
  cases M with
  | consent approved challenge displayName nonce sessionId sentAt =>
    cases displayName with
    | none => exact congrArg (fun r => asBytes <$> r) ok
    | some name => exact congrArg (fun r => asBytes <$> r) ok
  | _ => exact congrArg (fun r => asBytes <$> r) ok

/-- The bytes determine the fields, up to their order. -/
lemma perm_of_bytes (escapes : X.JsonEscapes) {M M' : Signable} (e : M.bytes X = M'.bytes X) :
    M.fields.Perm M'.fields := by
  rw [bytes_eq, bytes_eq] at e
  exact Jcs.canonical_perm escapes M.isFlat M'.isFlat (asBytes_inj (Except.ok.inj e))

/-- Messages with the same fields say the same. -/
lemma Same.of_perm {M M' : Signable} (perm : M.fields.Perm M'.fields) : M.Same M' := by
  -- most types differ in the number of their fields
  have len := perm.length_eq
  have keys (k : String) : k ∈ M.fields.map Prod.fst ↔ k ∈ M'.fields.map Prod.fst := (perm.map Prod.fst).mem_iff
  have fields_eq := Jcs.eq_of_perm M.isFlat.keys perm
  cases M with
  | consent approved challenge displayName nonce sessionId sentAt =>
    cases M' with
    | consent approved' challenge' displayName' nonce' sessionId' sentAt' =>
      cases displayName with
      | none =>
        cases displayName' with
        | none => simpa [fields, Same] using fields_eq rfl
        | some name' => nomatch len
      | some name =>
        cases displayName' with
        | none => nomatch len
        | some name' =>
          have h := fields_eq rfl
          simp only [fields, List.cons.injEq, Prod.mk.injEq, true_and, Value.bool.injEq, Value.str.injEq,
            Value.int.injEq, and_true] at h
          obtain ⟨rfl, rfl, rfl, rfl, rfl, rfl⟩ := h
          exact ⟨rfl, rfl, rfl, rfl, rfl, rfl⟩
    | qr r =>
      cases displayName with
      | none => nomatch len
      | some name => simpa [fields] using keys "approved"
    | _ => cases displayName <;> nomatch len
  | metadata m =>
    cases M' with
    | metadata m' =>
      have h := fields_eq rfl
      cases m
      cases m'
      simp only [fields, List.cons.injEq, Prod.mk.injEq, true_and, Value.str.injEq, Value.int.injEq, and_true] at h
      obtain ⟨rfl, rfl, rfl, rfl⟩ := h
      rfl
    | consent _ _ displayName => cases displayName <;> nomatch len
    | _ => nomatch len
  | qr r =>
    cases M' with
    | qr r' =>
      have h := fields_eq rfl
      cases r
      cases r'
      simp only [fields, List.cons.injEq, Prod.mk.injEq, true_and, Value.str.injEq, Value.int.injEq, and_true] at h
      obtain ⟨rfl, rfl, rfl, rfl, rfl, rfl⟩ := h
      exact ⟨rfl, rfl, rfl, rfl, rfl, rfl⟩
    | consent _ _ displayName =>
      cases displayName with
      | none => nomatch len
      | some name => simpa [fields] using keys "approved"
    | _ => nomatch len
  | registration r =>
    cases M' with
    | registration r' =>
      have h := fields_eq rfl
      cases r
      cases r'
      simp only [fields, List.cons.injEq, Prod.mk.injEq, true_and, Value.str.injEq, Value.int.injEq, and_true] at h
      obtain ⟨rfl, rfl, rfl, rfl, rfl, rfl, rfl, rfl⟩ := h
      rfl
    | revocation r' => simpa [fields] using keys "qrSignature"
    | consent _ _ displayName => cases displayName <;> nomatch len
    | _ => nomatch len
  | assertion a =>
    cases M' with
    | assertion a' =>
      have h := fields_eq rfl
      cases a
      cases a'
      simp only [fields, List.cons.injEq, Prod.mk.injEq, true_and, Value.str.injEq, Value.int.injEq, and_true] at h
      obtain ⟨rfl, rfl, rfl, rfl, rfl, rfl, rfl, rfl, rfl, rfl, rfl, version, rfl⟩ := h
      have version := congrArg Int64.toInt version
      rw [Int32.toInt_toInt64, Int32.toInt_toInt64] at version
      obtain rfl := Int32.toInt.inj version
      rfl
    | consent _ _ displayName => cases displayName <;> nomatch len
    | _ => nomatch len
  | revocation r =>
    cases M' with
    | revocation r' =>
      have h := fields_eq rfl
      cases r
      cases r'
      simp only [fields, List.cons.injEq, Prod.mk.injEq, true_and, Value.str.injEq, Value.int.injEq, and_true] at h
      obtain ⟨rfl, rfl, rfl, rfl, rfl, rfl, rfl, rfl⟩ := h
      rfl
    | registration r' => simpa [fields] using keys "qrSignature"
    | consent _ _ displayName => cases displayName <;> nomatch len
    | _ => nomatch len

/-- Messages that say the same have the same fields. -/
lemma Same.fields_eq {M M' : Signable} (same : M.Same M') : M.fields = M'.fields := by
  cases M with
  | consent approved challenge displayName nonce sessionId sentAt =>
    cases M' with
    | consent approved' challenge' displayName' nonce' sessionId' sentAt' =>
      obtain ⟨rfl, rfl, rfl, rfl, rfl, rfl⟩ := same
      rfl
    | _ => exact same.elim
  | qr r =>
    cases M' with
    | qr r' =>
      obtain ⟨version, domain, sessionId, nonce, iat, exp⟩ := same
      simp only [fields, version, domain, sessionId, nonce, iat, exp]
    | _ => exact same.elim
  | metadata m =>
    cases M' with
    | metadata m' =>
      have e := congrArg (fun m => fields (.metadata m)) same
      exact e.symm
    | _ => exact same.elim
  | registration r =>
    cases M' with
    | registration r' =>
      have e := congrArg (fun r => fields (.registration r)) same
      exact e.symm
    | _ => exact same.elim
  | assertion a =>
    cases M' with
    | assertion a' =>
      have e := congrArg (fun a => fields (.assertion a)) same
      exact e.symm
    | _ => exact same.elim
  | revocation r =>
    cases M' with
    | revocation r' =>
      have e := congrArg (fun r => fields (.revocation r)) same
      exact e.symm
    | _ => exact same.elim

end Signable

/-- Signed bytes determine the message: two messages have the same bytes exactly if they are of one type and
agree in everything that is signed. -/
theorem signed_bytes_determine_message {X : Crates} (escapes : X.JsonEscapes) (M M' : Signable) :
    M.bytes X = M'.bytes X ↔ M.Same M' := by
  constructor
  · intro e
    exact .of_perm (Signable.perm_of_bytes escapes e)
  · intro same
    rw [Signable.bytes_eq, Signable.bytes_eq, same.fields_eq]

/-- The QR code of Alice and her registration are signed for different bytes. -/
theorem signed_bytes_determine_message_alice : (Signable.qr Sample.alice.registration).bytes .stub ≠
    (Signable.registration Sample.alice.registration).bytes .stub := by
  have escapes : Crates.stub.JsonEscapes := fun _ => rfl
  intro e
  exact (signed_bytes_determine_message escapes _ _).mp e

end WebLoginRelay
