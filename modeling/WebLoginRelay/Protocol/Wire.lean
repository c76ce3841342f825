import WebLoginRelay.JsonText
import WebLoginRelay.Protocol.Messages

/-!
# Messages on the wire

What a phone puts into the body of a Matrix event, and that `matrix::decode` reads it again; and that
`matrix::encode` accepts what the relay sends, because its texts are short when their fields are.
-/

namespace WebLoginRelay
open Text JsonText

/-- Objects of scalars are printed without white space, and strings with the standard escapes. -/
def Crates.JsonCompact (X : Crates) : Prop :=
  ∀ fields : List (String × Value), (∀ f ∈ fields, f.2.isScalar) →
    X.jsonToVec (.obj fields) = asBytes (String.ofList (JsonText.print (.obj fields)))

/-- Text in the bytes of the base64url alphabet is text in its characters. -/
lemma urlSafe_of_bytes {s : String} (h : ∀ b ∈ asBytes s, Crates.isBase64Byte b) :
    s.length = len s ∧ ∀ c ∈ s.toList, isUrlSafe c := by
  have alphabet : ∀ n : Fin 128, Crates.isBase64Byte (UInt8.ofNat n) → isUrlSafe (Char.ofNat n) := by
    decide
  have ascii (b : UInt8) (hb : Crates.isBase64Byte b) : b.toNat < 128 := by
    simp only [Crates.isBase64Byte, Bool.or_eq_true, Bool.and_eq_true, decide_eq_true_eq, beq_iff_eq,
      UInt8.le_iff_toNat_le] at hb
    have digit : '9'.toUInt8.toNat = 57 := rfl
    have upper : 'Z'.toUInt8.toNat = 90 := rfl
    have lower : 'z'.toUInt8.toNat = 122 := rfl
    obtain (((hb | hb) | hb) | rfl) | rfl := hb
    · omega
    · omega
    · omega
    · decide
    · decide
  have bytes : asBytes s = s.toList.flatMap String.utf8EncodeChar := by
    rw [← asBytes_ofList, String.ofList_toList]
  rw [bytes] at h
  rw [len_eq_length, bytes, ← String.length_toList]
  generalize s.toList = cs at h
  induction cs with
  | nil => exact ⟨rfl, nofun⟩
  | cons c cs ih =>
    rw [List.flatMap_cons] at h
    obtain ⟨length, safe⟩ := ih fun b hb => h b (List.mem_append_right _ hb)
    obtain ⟨lt, one⟩ := utf8EncodeChar_ascii (c := c) fun b hb =>
      ascii b (h b (List.mem_append_left _ hb))
    have first : Crates.isBase64Byte (UInt8.ofNat c.toNat) := h _ (by simp [one])
    refine ⟨by simp [one, length], fun d hd => ?_⟩
    obtain rfl | hd := List.mem_cons.mp hd
    · have := alphabet ⟨d.toNat, lt⟩ first
      rwa [Char.ofNat_toNat] at this
    · exact safe d hd

/-- Encoded bytes are text in the characters of the protocol's identifiers. -/
lemma Base64url.encode_urlSafe {X : Crates} (shape : X.Base64Shape) (b : Bytes) :
    (Base64url.encode X b).length = (4 * b.length + 2) / 3 ∧
      ∀ c ∈ (Base64url.encode X b).toList, isUrlSafe c := by
  obtain ⟨length, alphabet⟩ := shape b
  obtain ⟨same, safe⟩ := urlSafe_of_bytes (s := X.base64Encode b) alphabet
  exact ⟨same.trans length, safe⟩

/-- A derived subject has 43 characters of the protocol's identifiers. -/
lemma derivePairwiseSub_shape {X : Crates} (shape : X.Base64Shape) {secret : Bytes} {domain u sub : String}
    (h : derivePairwiseSub X secret domain u = .ok sub) : sub.length = 43 ∧ ∀ c ∈ sub.toList, isUrlSafe c := by
  have e := derivePairwiseSub_eq h
  have safe := Base64url.encode_urlSafe shape (X.hmacSha256 secret (subjectMessage domain u))
  have length := (urlSafe_of_bytes (shape (X.hmacSha256 secret (subjectMessage domain u))).2).1
  simp only [derivePairwiseSub] at h
  split at h
  · cases h
  · split at h
    · cases h
    · rename_i exact43
      rw [← e] at safe
      refine ⟨?_, safe.2⟩
      rw [e]
      exact length.trans (not_not.mp exact43)

/-- `base64url::decode` undoes `base64url::encode`. -/
lemma Base64url.decode_encode {X : Crates} (b64 : X.Base64Correct) (shape : X.Base64Shape) (b : Bytes) :
    Base64url.decode X (Base64url.encode X b) = .ok b := by
  have alphabet : ∀ c ∈ asBytes (X.base64Encode b), Crates.isBase64Byte c := (shape b).2
  have noPadding : ¬ (asBytes (X.base64Encode b)).any (· == '='.toUInt8) := by
    intro h
    obtain ⟨c, hc, e⟩ := List.any_eq_true.mp h
    rw [beq_iff_eq.mp e] at hc
    exact absurd (alphabet _ hc) (by decide)
  have all : ¬ (!(asBytes (X.base64Encode b)).all Crates.isBase64Byte) := by
    simpa using alphabet
  unfold Base64url.decode Base64url.encode
  rw [if_neg noPadding, b64 b]
  exact if_neg all

namespace MatrixMessage

/-- The body a message is sent in. -/
def body (X : Crates) (m : MatrixMessage) : String :=
  matrixPrefix ++ Base64url.encode X (X.jsonToVec m.toValue)

/-- An object denotes the message it was made from. -/
lemma fromValue_toValue (m : MatrixMessage) : fromValue m.toValue = some m := by
  cases m with
  | request sessionId nonce sentAt domain => rfl
  | challenge sessionId nonce sentAt siteName domain requestedDisplayName token expiresAt => rfl
  | consent sessionId nonce sentAt approved displayName token keyId signature =>
    cases displayName <;> rfl
  | result sessionId nonce sentAt success siteAccountId reason =>
    cases siteAccountId <;> cases reason <;> rfl
  | revocation sessionId nonce sentAt siteAccountId reason => cases reason <;> rfl

/-- The fields of a message. -/
lemma toValue_flat (m : MatrixMessage) : ∃ fields, m.toValue = .obj fields ∧
    (fields.map Prod.fst).Nodup ∧ ∀ f ∈ fields, f.2.isScalar := by
  cases m <;> exact ⟨_, rfl, by simp, by simp⟩

/-- The body of a valid inbound message is read again. -/
theorem decode_body {X : Crates} (b64 : X.Base64Correct) (shape : X.Base64Shape)
    (json : X.JsonCorrect) {m : MatrixMessage} (valid : m.validateInbound = .ok ())
    (short : (X.jsonToVec m.toValue).length ≤ maxDecodedBody) : decode X (m.body X) = .ok m := by
  obtain ⟨fields, e, nd, sc⟩ := m.toValue_flat
  have parsed : strictFromSlice X fromValue (X.jsonToVec m.toValue) = .ok m := by
    rw [e]
    exact strictFromSlice_jsonToVec json nd sc (by rw [← e]; exact m.fromValue_toValue)
  have length : ¬ len (m.body X) > maxDecodedBody * 2 := by
    have l : len (m.body X) = len matrixPrefix + len (X.base64Encode (X.jsonToVec m.toValue)) := by
      simp [len, body, Base64url.encode]
    have p : len matrixPrefix = 20 := by decide
    rw [l, (shape _).1, p]
    unfold maxDecodedBody at *
    omega
  have short' : ¬ (X.jsonToVec m.toValue).length > maxDecodedBody := Nat.not_lt.mpr short
  have stripped : stripPrefix (m.body X) matrixPrefix =
      some (Base64url.encode X (X.jsonToVec m.toValue)) := stripPrefix_append ..
  rw [decode, if_neg length, stripped]
  simp only [Base64url.decode_encode b64 shape, ok_bind, if_neg short', parsed, valid]
  rfl

/-! ## What the relay sends -/

/-- A message with short fields is short. -/
lemma short_of_bounds {X : Crates} (compact : X.JsonCompact) {m : MatrixMessage}
    {fields : List (String × Value)} {k b : Nat} (e : m.toValue = .obj fields)
    (scalar : ∀ f ∈ fields, f.2.isScalar) (keys : ∀ f ∈ fields, f.1.length ≤ k)
    (values : ∀ f ∈ fields, (JsonText.print f.2).length ≤ b)
    (le : 4 * (fields.length * (6 * k + b + 4) + 2) ≤ maxDecodedBody) :
    (X.jsonToVec m.toValue).length ≤ maxDecodedBody := by
  have bytes := length_asBytes_ofList (JsonText.print m.toValue)
  rw [e, compact fields scalar]
  rw [e] at bytes
  refine bytes.trans (le_trans ?_ le)
  exact Nat.mul_le_mul_left 4 (JsonText.length_print_obj keys values)

/-- A message is short when the bounds of its fields are. -/
lemma short_of_fields {X : Crates} (compact : X.JsonCompact) {m : MatrixMessage}
    {fields : List (String × Value)} {bounds : List Nat} (e : m.toValue = .obj fields)
    (scalar : ∀ f ∈ fields, f.2.isScalar)
    (each : List.Forall₂ (fun f b => 6 * f.1.length + (JsonText.print f.2).length + 4 ≤ b) fields bounds)
    (le : 4 * (bounds.sum + 2) ≤ maxDecodedBody) : (X.jsonToVec m.toValue).length ≤ maxDecodedBody := by
  have bytes := length_asBytes_ofList (JsonText.print m.toValue)
  rw [e, compact fields scalar]
  rw [e] at bytes
  refine bytes.trans (le_trans ?_ le)
  exact Nat.mul_le_mul_left 4 (JsonText.length_print_fields each)

/-- The bound of a field. -/
lemma field_bound {key : String} {v : Value} {k n : Nat} (h : (JsonText.print v).length ≤ n)
    (hk : key.length = k) : 6 * (key, v).1.length + (JsonText.print (key, v).2).length + 4 ≤ 6 * k + n + 4 := by
  dsimp only
  omega

/-- A valid short message is encoded. -/
lemma encode_ok {X : Crates} {m : MatrixMessage} (valid : m.validateOutbound = .ok ())
    (short : (X.jsonToVec m.toValue).length ≤ maxDecodedBody) : m.encode X = .ok (m.body X) := by
  simp only [encode, valid, ok_bind, if_neg (Nat.not_lt.mpr short)]
  rfl

section Encode
variable {X : Crates} {sessionId nonce : String} {sentAt : Int64}

/-- A Challenge for a registered session is encoded. -/
theorem encode_challenge (compact : X.JsonCompact) {siteName domain requestedDisplayName token : String}
    {expiresAt : Int64} (hs : validateId sessionId = .ok ()) (hn : validateId nonce = .ok ())
    (hd : validateDomain domain = .ok ()) (site : siteName.isEmpty = false ∧ len siteName ≤ 100)
    (display : len requestedDisplayName ≤ 100)
    (ht : token.length = 22 ∧ ∀ c ∈ token.toList, isUrlSafe c) :
    let m := challenge sessionId nonce sentAt siteName domain requestedDisplayName token expiresAt
    m.encode X = .ok (m.body X) := by
  refine encode_ok ?_ ?_
  · have token_ok : validateChallengeToken token = .ok () :=
      validateChallengeToken_iff.mpr ⟨by omega, by omega, ht.2⟩
    have name : ¬ (siteName.isEmpty ∨ len siteName > maxDisplayName) := by
      rw [site.1, not_or, Nat.not_lt]
      exact ⟨Bool.false_ne_true, site.2⟩
    have requested : ¬ len requestedDisplayName > maxDisplayName := Nat.not_lt.mpr display
    simp only [validateOutbound, hs, hn, hd, ok_bind, if_neg name, if_neg requested, token_ok]
  · have domain_le := (length_le_len domain).trans (len_of_validateDomain hd)
    have sessionId_le := (validateId_iff.mp hs).2.1
    have nonce_le := (validateId_iff.mp hn).2.1
    have siteName_le := (length_le_len siteName).trans site.2
    have display_le := (length_le_len requestedDisplayName).trans display
    exact short_of_fields compact rfl (by simp)
      (.cons (field_bound (length_print_str (n := 9) (by decide)) rfl) <|
        .cons (field_bound (length_print_str sessionId_le) rfl) <|
        .cons (field_bound (length_print_str nonce_le) rfl) <|
        .cons (field_bound (length_print_int _) rfl) <|
        .cons (field_bound (length_print_str siteName_le) rfl) <|
        .cons (field_bound (length_print_str domain_le) rfl) <|
        .cons (field_bound (length_print_str display_le) rfl) <|
        .cons (field_bound (length_print_str ht.1.le) rfl) <|
        .cons (field_bound (length_print_int _) rfl) .nil) (by decide)

/-- The notice of a refusal or of an expired session is encoded. -/
theorem encode_failure (compact : X.JsonCompact) {reason : String} (hs : validateId sessionId = .ok ())
    (hn : validateId nonce = .ok ()) (short : len reason ≤ 100) :
    let m := result sessionId nonce sentAt false none (some reason)
    m.encode X = .ok (m.body X) := by
  have sessionId_le := (validateId_iff.mp hs).2.1
  have nonce_le := (validateId_iff.mp hn).2.1
  have reason_le := (length_le_len reason).trans short
  refine encode_ok ?_ ?_
  · simp only [validateOutbound, hs, hn, ok_bind, validateReason, if_pos short]
  · exact short_of_fields compact rfl (by simp)
      (.cons (field_bound (length_print_str (n := 6) (by decide)) rfl) <|
        .cons (field_bound (length_print_str sessionId_le) rfl) <|
        .cons (field_bound (length_print_str nonce_le) rfl) <|
        .cons (field_bound (length_print_int _) rfl) <|
        .cons (field_bound (n := 5) (by decide) rfl) <|
        .cons (field_bound (n := 4) (by decide) rfl) <|
        .cons (field_bound (length_print_str reason_le) rfl) .nil) (by decide)

/-- The notice of a login is encoded. -/
theorem encode_success (compact : X.JsonCompact) {sub : String} (hs : validateId sessionId = .ok ())
    (hn : validateId nonce = .ok ()) (account : validateSiteAccountId sub = .ok ()) :
    let m := result sessionId nonce sentAt true (some sub) none
    m.encode X = .ok (m.body X) := by
  have sessionId_le := (validateId_iff.mp hs).2.1
  have nonce_le := (validateId_iff.mp hn).2.1
  have sub_le := (validateSiteAccountId_iff.mp account).2.1
  refine encode_ok ?_ ?_
  · simp only [validateOutbound, hs, hn, account, ok_bind]
    rfl
  · exact short_of_fields compact rfl (by simp)
      (.cons (field_bound (length_print_str (n := 6) (by decide)) rfl) <|
        .cons (field_bound (length_print_str sessionId_le) rfl) <|
        .cons (field_bound (length_print_str nonce_le) rfl) <|
        .cons (field_bound (length_print_int _) rfl) <|
        .cons (field_bound (n := 4) (by decide) rfl) <|
        .cons (field_bound (length_print_str sub_le) rfl) <|
        .cons (field_bound (n := 4) (by decide) rfl) .nil) (by decide)

end Encode

end MatrixMessage

end WebLoginRelay
