import WebLoginRelay.Protocol.Wire
import WebLoginRelay.Samples.Runs

/-!
# Matrix messages on the wire and back

What the relay accepts from a phone it can also send: a message that passes the inbound checks is encoded,
because its fields are short under every escaping, and is decoded again.
-/

namespace WebLoginRelay
open Text

/-- Characters of the protocol's identifiers are not escaped. -/
lemma escape_urlSafe {c : Char} (h : isUrlSafe c) : JsonText.escape c = [c] := by
  have other {n : Nat} (bad : ¬ isUrlSafe (Char.ofNat n)) : c.toNat ≠ n := by
    rintro rfl
    rw [Char.ofNat_toNat] at bad
    exact bad h
  have quote : c.toNat ≠ 34 := other (by decide)
  have backslash : c.toNat ≠ 92 := other (by decide)
  have printed : 33 ≤ c.toNat := by
    refine Nat.not_lt.mp fun low => ?_
    have control : ∀ n : Fin 33, ¬ isUrlSafe (Char.ofNat n) := by decide
    exact other (control ⟨c.toNat, low⟩) rfl
  have long : JsonText.short c = none := by
    unfold JsonText.short
    simp only [if_neg quote, if_neg backslash]
    exact if_pos (by omega)
  rw [JsonText.escape, long]
  exact if_neg (by omega)

/-- An identifier is printed as it is, between quotes. -/
lemma length_print_urlSafe {s : String} {n : Nat} (le : s.length ≤ n) (safe : ∀ c ∈ s.toList, isUrlSafe c) :
    (JsonText.print (.str s)).length ≤ n + 2 := by
  have same : s.toList.flatMap JsonText.escape = s.toList := by
    generalize s.toList = cs at safe
    induction cs with
    | nil => rfl
    | cons c cs ih =>
      obtain ⟨first, rest⟩ := List.forall_mem_cons.mp safe
      rw [List.flatMap_cons, escape_urlSafe first, ih rest]
      rfl
  simp only [JsonText.print, JsonText.printString, same, List.length_append, List.length_cons, List.length_nil]
  rw [String.length_toList]
  omega

/-- An optional text is printed in the room of the text. -/
lemma length_print_ofOptStr {o : Option String} {n : Nat} (h : ∀ s ∈ o, s.length ≤ n) :
    (JsonText.print (.ofOptStr o)).length ≤ 6 * n + 4 := by
  cases o with
  | none =>
    have four : (JsonText.print (.ofOptStr none)).length = 4 := rfl
    omega
  | some s =>
    have printed : (JsonText.print (.str s)).length ≤ 6 * n + 2 := JsonText.length_print_str (h s rfl)
    exact printed.trans (by omega)

/-- A truth value has at most five characters. -/
lemma length_print_bool (b : Bool) : (JsonText.print (.bool b)).length ≤ 5 := by
  cases b with
  | false => decide
  | true => decide

namespace MatrixMessage
variable {sessionId nonce domain token keyId signature siteAccountId : String} {sentAt : Int64} {approved : Bool}
  {displayName reason : Option String}

/-- What the fields of a Consent are checked for. -/
lemma validateInbound_consent
    (h : (consent sessionId nonce sentAt approved displayName token keyId signature).validateInbound = .ok ()) :
    validateId sessionId = .ok () ∧ validateId nonce = .ok () ∧ validateChallengeToken token = .ok () ∧
      len keyId ≤ 512 ∧ validateSignatureB64 signature = .ok () ∧ ∀ name ∈ displayName, len name ≤ 100 := by
  obtain ⟨_, id, h⟩ := bind_ok h
  obtain ⟨_, no, h⟩ := bind_ok h
  obtain ⟨_, tok, h⟩ := bind_ok h
  obtain ⟨key, h⟩ := guard_ok h
  obtain ⟨_, sig, h⟩ := bind_ok h
  refine ⟨id, no, tok, Nat.not_lt.mp fun long => key (.inr long), sig, ?_⟩
  intro name e
  obtain rfl : displayName = some name := e
  cases approved with
  | true =>
    dsimp only at h
    split at h
    · rename_i ok
      exact ok.2
    · nomatch h
  | false => nomatch h

/-- What the fields of a Revocation are checked for. -/
lemma validateInbound_revocation
    (h : (revocation sessionId nonce sentAt siteAccountId reason).validateInbound = .ok ()) :
    validateId sessionId = .ok () ∧ validateId nonce = .ok () ∧ validateSiteAccountId siteAccountId = .ok () ∧
      ∀ r ∈ reason, len r ≤ 100 := by
  obtain ⟨_, id, h⟩ := bind_ok h
  obtain ⟨_, no, h⟩ := bind_ok h
  obtain ⟨_, account, h⟩ := bind_ok h
  refine ⟨id, no, account, ?_⟩
  intro r e
  obtain rfl : reason = some r := e
  have ok : validateReason r = .ok () := h
  unfold validateReason at ok
  split at ok
  · assumption
  · nomatch ok

/-- What passes the inbound checks passes the outbound ones. -/
lemma outbound_of_inbound {m : MatrixMessage} (h : m.validateInbound = .ok ()) : m.validateOutbound = .ok () := by
  cases m with
  | request sessionId nonce sentAt domain => rfl
  | challenge sessionId nonce sentAt siteName domain requestedDisplayName token expiresAt => nomatch h
  | consent sessionId nonce sentAt approved displayName token keyId signature => rfl
  | result sessionId nonce sentAt success siteAccountId reason => nomatch h
  | revocation sessionId nonce sentAt siteAccountId reason => exact h

/-- What passes the inbound checks fits into a body, whatever is escaped. -/
lemma short_of_inbound {X : Crates} (compact : X.JsonCompact) {m : MatrixMessage}
    (h : m.validateInbound = .ok ()) : (X.jsonToVec m.toValue).length ≤ maxDecodedBody := by
  have id {s : String} (ok : validateId s = .ok ()) : (JsonText.print (.str s)).length ≤ 130 :=
    length_print_urlSafe (validateId_iff.mp ok).2.1 (validateId_iff.mp ok).2.2
  cases m with
  | request sessionId nonce sentAt domain =>
    obtain ⟨_, sid, h⟩ := bind_ok h
    obtain ⟨_, no, dom⟩ := bind_ok h
    have domain_le := (length_le_len domain).trans (len_of_validateDomain dom)
    exact short_of_fields compact rfl (by simp)
      (.cons (field_bound (JsonText.length_print_str (n := 7) (by decide)) rfl) <|
        .cons (field_bound (id sid) rfl) <|
        .cons (field_bound (id no) rfl) <|
        .cons (field_bound (JsonText.length_print_int _) rfl) <|
        .cons (field_bound (JsonText.length_print_str domain_le) rfl) .nil) (by decide)
  | challenge sessionId nonce sentAt siteName domain requestedDisplayName token expiresAt => nomatch h
  | consent sessionId nonce sentAt approved displayName token keyId signature =>
    obtain ⟨sid, no, tok, key, sig, name⟩ := validateInbound_consent h
    obtain ⟨_, token_le, token_safe⟩ := validateChallengeToken_iff.mp tok
    obtain ⟨signature_eq, signature_safe⟩ := validateSignatureB64_iff.mp sig
    have key_le := (length_le_len keyId).trans key
    have name_le : ∀ s ∈ displayName, s.length ≤ 100 := fun s hs => (length_le_len s).trans (name s hs)
    exact short_of_fields compact rfl (by simp)
      (.cons (field_bound (JsonText.length_print_str (n := 7) (by decide)) rfl) <|
        .cons (field_bound (id sid) rfl) <|
        .cons (field_bound (id no) rfl) <|
        .cons (field_bound (JsonText.length_print_int _) rfl) <|
        .cons (field_bound (length_print_bool _) rfl) <|
        .cons (field_bound (length_print_ofOptStr name_le) rfl) <|
        .cons (field_bound (length_print_urlSafe token_le token_safe) rfl) <|
        .cons (field_bound (JsonText.length_print_str key_le) rfl) <|
        .cons (field_bound (length_print_urlSafe signature_eq.le signature_safe) rfl) .nil) (by decide)
  | result sessionId nonce sentAt success siteAccountId reason => nomatch h
  | revocation sessionId nonce sentAt siteAccountId reason =>
    obtain ⟨sid, no, account, short⟩ := validateInbound_revocation h
    obtain ⟨_, account_le, account_safe⟩ := validateSiteAccountId_iff.mp account
    have reason_le : ∀ s ∈ reason, s.length ≤ 100 := fun s hs => (length_le_len s).trans (short s hs)
    exact short_of_fields compact rfl (by simp)
      (.cons (field_bound (JsonText.length_print_str (n := 10) (by decide)) rfl) <|
        .cons (field_bound (id sid) rfl) <|
        .cons (field_bound (id no) rfl) <|
        .cons (field_bound (JsonText.length_print_int _) rfl) <|
        .cons (field_bound (length_print_urlSafe account_le account_safe) rfl) <|
        .cons (field_bound (length_print_ofOptStr reason_le) rfl) .nil) (by decide)

/-- A decoded message has passed the inbound checks. -/
lemma valid_of_decode {X : Crates} {b : String} {m : MatrixMessage} (h : decode X b = .ok m) :
    m.validateInbound = .ok () := by
  unfold decode at h
  split at h
  · nomatch h
  · split at h
    · nomatch h
    · obtain ⟨bytes, _, h⟩ := bind_ok h
      split at h
      · nomatch h
      · obtain ⟨message, _, h⟩ := bind_ok h
        obtain ⟨_, valid, h⟩ := bind_ok h
        cases h
        exact valid

end MatrixMessage

/-- A body is the prefix and the base64url of at most 32768 bytes, within the limit of a body. -/
structure IsBody (X : Crates) (m : MatrixMessage) (body : String) : Prop where
  text : body = matrixPrefix ++ Base64url.encode X (X.jsonToVec m.toValue)
  decoded : (X.jsonToVec m.toValue).length ≤ 32768
  encoded : len body ≤ 65536

/-- Every message that passes the inbound checks is encoded and decoded again; and so is every message that
was decoded from any body, which has passed them. -/
theorem wire_round_trip {X : Crates} (b64 : X.Base64Correct) (shape : X.Base64Shape) (json : X.JsonCorrect)
    (compact : X.JsonCompact) :
    (∀ m : MatrixMessage, m.validateInbound = .ok () →
      ∃ body, m.encode X = .ok body ∧ MatrixMessage.decode X body = .ok m ∧ IsBody X m body) ∧
    (∀ b m, MatrixMessage.decode X b = .ok m →
      ∃ body, m.encode X = .ok body ∧ MatrixMessage.decode X body = .ok m ∧ IsBody X m body) := by
  have trip (m : MatrixMessage) (valid : m.validateInbound = .ok ()) :
      ∃ body, m.encode X = .ok body ∧ MatrixMessage.decode X body = .ok m ∧ IsBody X m body := by
    have short := MatrixMessage.short_of_inbound compact valid
    refine ⟨m.body X, MatrixMessage.encode_ok (MatrixMessage.outbound_of_inbound valid) short,
      MatrixMessage.decode_body b64 shape json valid short, rfl, short, ?_⟩
    have length : len (m.body X) = len matrixPrefix + len (X.base64Encode (X.jsonToVec m.toValue)) := by
      simp [len, MatrixMessage.body, Base64url.encode]
    have fixed : len matrixPrefix = 20 := by decide
    rw [length, (shape _).1, fixed]
    unfold maxDecodedBody at short
    omega
  refine ⟨trip, ?_⟩
  intro b m h
  exact trip m (MatrixMessage.valid_of_decode h)

/-- Alice's Request on the wire and back. -/
theorem wire_round_trip_alice : ∃ body, (MatrixMessage.request "session-of-alice" "nonce-of-alice-1" (-5)
    "a.io").encode .stub = .ok body ∧ MatrixMessage.decode .stub body =
      .ok (.request "session-of-alice" "nonce-of-alice-1" (-5) "a.io") := by
  have v := Sample.alice_valid
  have valid : (MatrixMessage.request "session-of-alice" "nonce-of-alice-1" (-5) "a.io").validateInbound = .ok () := by
    have sessionId : validateId "session-of-alice" = .ok () := v.sessionId
    have nonce : validateId "nonce-of-alice-1" = .ok () := v.nonce
    have domain : validateDomain "a.io" = .ok () := v.domain
    simp only [MatrixMessage.validateInbound, sessionId, nonce, domain, ok_bind]
  obtain ⟨body, encoded, decoded, _⟩ := (wire_round_trip Crates.stub_base64 Crates.stub_base64Shape
    Crates.stub_json Crates.stub_compact).1 _ valid
  exact ⟨body, encoded, decoded⟩

end WebLoginRelay
