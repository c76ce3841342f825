import WebLoginRelay.Crypto.CanonicalText
import WebLoginRelay.Ecma.Canonical
import WebLoginRelay.Ecma.Number
import WebLoginRelay.Properties.Lifetime

/-!
# Canonical bytes

`jcs.rs` is not RFC 8785: it orders keys by their bytes and prints every digit of an integer. But all its
keys are ASCII, and no time that is admitted reaches `2 ^ 53`; so wherever a signature decides something,
the signed bytes are the ones of RFC 8785.
-/

namespace WebLoginRelay
open Text Txn Ecma

/-! ## Flat objects -/

/-- A character is escaped as ECMAScript escapes it. -/
lemma escape_eq_quoteChar (c : Char) : JsonText.escape c = quoteChar c := by
  by_cases ascii : c.toNat < 128
  · have all : ∀ n : Fin 128, JsonText.escape (Char.ofNat n) = quoteChar (Char.ofNat n) := by decide
    have e := all ⟨c.toNat, ascii⟩
    rwa [Char.ofNat_toNat] at e
  · have short : JsonText.short c = none := by
      unfold JsonText.short
      dsimp only
      rw [if_neg (by omega), if_neg (by omega), if_pos (by omega)]
    rw [JsonText.escape, short, quoteChar]
    dsimp only
    rw [if_neg (by omega)]
    split
    all_goals first
      | omega
      | rw [if_neg (by omega)]

/-- Strings are printed as ECMAScript quotes them. -/
lemma printString_eq_quote (s : String) : JsonText.printString s = quote s := by
  rw [JsonText.printString, quote, funext escape_eq_quoteChar]

/-- A scalar as RFC 8785 serialises it: an integer as the nearest double. -/
inductive Serialised : Value → List Char → Prop where
  | null : Serialised .null ['n', 'u', 'l', 'l']
  | true : Serialised (.bool true) ['t', 'r', 'u', 'e']
  | false : Serialised (.bool false) ['f', 'a', 'l', 's', 'e']
  | int {n : Int64} {x : ℚ} {text : List Char} : Rounds n.toInt x → Prints x text → Serialised (.int n) text
  | str {s : String} : Serialised (.str s) (quote s)

/-- An integer is one that a double represents, and so are those below it. -/
def Value.InRange : Value → Prop
  | .int n => |n.toInt| < 2 ^ 53
  | v => v.isScalar

/-- The canonical text of an object in the bytes of a signature. -/
def IsCanonical (fields : List (String × Value)) (bytes : Bytes) : Prop :=
  ∃ text, (∀ t, CanonicalObject Serialised fields t ↔ t = text) ∧ bytes = asBytes (String.ofList text)

/-- Values in range are scalars. -/
lemma Value.InRange.isScalar {v : Value} (h : v.InRange) : v.isScalar := by
  cases v with
  | arr items => exact h
  | obj fields => exact h
  | _ => rfl

/-- A scalar in the range is serialised as it is printed. -/
lemma serialised_iff {v : Value} (range : v.InRange) (text : List Char) :
    Serialised v text ↔ text = JsonText.print v := by
  cases v with
  | null => exact ⟨fun h => by cases h; rfl, fun e => e ▸ .null⟩
  | bool b =>
    cases b with
    | true => exact ⟨fun h => by cases h; rfl, fun e => e ▸ .true⟩
    | false => exact ⟨fun h => by cases h; rfl, fun e => e ▸ .false⟩
  | int n =>
    have printed : (∃ x, Rounds n.toInt x ∧ Prints x text) ↔ text = decimal n.toInt := prints_int range
    constructor
    · intro h
      cases h with
      | int r p => exact printed.mp ⟨_, r, p⟩
    · intro e
      obtain ⟨x, r, p⟩ := printed.mpr e
      exact .int r p
  | str s =>
    rw [JsonText.print, printString_eq_quote]
    exact ⟨fun h => by cases h; rfl, fun e => e ▸ .str⟩
  | arr items => cases range
  | obj fields => cases range

/-- What `canonicalize_object` writes for ASCII keys and scalars in the range is the text of RFC 8785. -/
lemma isCanonical_of_canonicalizeObject {X : Crates} (escapes : X.JsonEscapes) {fields : List (String × Value)}
    {text : String} (h : Jcs.canonicalizeObject X fields = .ok text) (ascii : ∀ k ∈ fields.map Prod.fst, IsAscii k)
    (range : ∀ f ∈ fields, f.2.InRange) : IsCanonical fields (asBytes text) := by
  unfold Jcs.canonicalizeObject at h
  split at h
  · cases h
    rename_i nodup
    have flat (f) (hf : f ∈ fields) : f.2.isScalar := (range f hf).isScalar
    have perm := Jcs.sortFields_perm fields
    have distinct : (Jcs.sortFields fields).Pairwise fun f g => f.1 ≠ g.1 :=
      List.pairwise_map.mp ((perm.map Prod.fst).nodup_iff.mpr nodup)
    have order : (Jcs.sortFields fields).Pairwise fun f g => utf16 f.1 < utf16 g.1 := by
      refine ((Jcs.sortFields_order fields).and distinct).imp_of_mem fun {f g} hf hg ⟨le, ne⟩ => ?_
      have af := ascii f.1 (List.mem_map_of_mem (perm.mem_iff.mp hf))
      have ag := ascii g.1 (List.mem_map_of_mem (perm.mem_iff.mp hg))
      obtain lt | same := utf16_of_bytes_le af ag le
      · exact lt
      · exact absurd (utf16_inj af ag same) ne
    have texts : (fun f : String × Value => quote f.1 ++ ':' :: JsonText.print f.2) = Jcs.fieldText := by
      funext f
      rw [Jcs.fieldText, printString_eq_quote]
    refine ⟨_, fun t => canonicalObject_iff perm order fun f hf => serialised_iff (range f hf), ?_⟩
    rw [texts, braces, ← Jcs.toList_writeObject escapes flat, String.ofList_toList]
  · nomatch h

/-! ## The documented objects -/

/-- The object a QR code signs. -/
def RegistrationRequest.qrObject (r : RegistrationRequest) : List (String × Value) :=
  [("domain", .str r.domain), ("exp", .int r.exp), ("iat", .int r.iat), ("nonce", .str r.nonce),
    ("session", .str r.sessionId), ("v", .int 1)]

/-- The object a registration signs: the request without the signature. -/
def RegistrationRequest.registrationObject (r : RegistrationRequest) : List (String × Value) :=
  [("domain", .str r.domain), ("exp", .int r.exp), ("iat", .int r.iat), ("nonce", .str r.nonce),
    ("qrSignature", .str r.qrSignature), ("requestedDisplayName", .str r.requestedDisplayName),
    ("sessionId", .str r.sessionId), ("version", .int 1)]

/-- The object a Consent signs; a `displayName` that is null is left out. -/
def consentObject (approved : Bool) (challenge : String) (displayName : Option String) (nonce sessionId : String)
    (sentAt : Int64) : List (String × Value) :=
  [("approved", .bool approved), ("challenge", .str challenge), ("nonce", .str nonce),
    ("sessionId", .str sessionId), ("sentAt", .int sentAt)] ++
  (displayName.map fun name => ("displayName", .str name)).toList

variable {st : AppState} {ls : List Label} {S S' : Sys} {lb : Label} {past : List Act} {db : Db}

/-- The bytes of a signature are the text that was written. -/
lemma canonical_ok {X : Crates} {fields : List (String × Value)} {bytes : Bytes}
    (h : (do return asBytes (← Jcs.canonicalizeObject X fields)) = (.ok bytes : Except RelayError Bytes)) :
    ∃ text, Jcs.canonicalizeObject X fields = .ok text ∧ bytes = asBytes text := by
  cases e : Jcs.canonicalizeObject X fields with
  | error x =>
    rw [e] at h
    nomatch h
  | ok text =>
    rw [e] at h
    cases h
    exact ⟨text, rfl, rfl⟩

/-- A time in the range is one that a double represents. -/
lemma inRange_int {n : Int64} (low : -9000000000000000 < n.toInt) (high : n.toInt < 9000000000000000) :
    (Value.int n).InRange := by
  show |n.toInt| < 2 ^ 53
  rw [abs_lt]
  constructor
  · omega
  · omega

/-- A registration that is stored has signed canonical bytes. -/
lemma Registration.isCanonical {request} (escapes : st.crates.JsonEscapes) (range : st.crates.TimestampRange)
    (c : Registration st request past db) :
    IsCanonical request.qrObject c.qr ∧ IsCanonical request.registrationObject c.canonical := by
  obtain ⟨_, low, high⟩ := millisToUtc_grace range c.expiresAt_eq
  obtain ⟨lt, le⟩ := (validateWindow_iff ..).mp (RegistrationRequest.validate_ok c.valid).2.2.2.1
  have version : request.version = 1 := by
    have valid := c.valid
    simp only [RegistrationRequest.validate] at valid
    exact not_not.mp (guard_ok valid).1
  have iat : (Value.int request.iat).InRange := inRange_int (by omega) (by omega)
  have exp : (Value.int request.exp).InRange := inRange_int (by omega) (by omega)
  have one : (Value.int 1).InRange := inRange_int (by decide) (by decide)
  have str (s : String) : (Value.str s).InRange := rfl
  obtain ⟨qr, e, qr_eq⟩ := canonical_ok c.qr_eq
  obtain ⟨canonical, e', canonical_eq⟩ := canonical_ok c.canonical_eq
  rw [qr_eq, canonical_eq]
  rw [version] at e e'
  refine ⟨isCanonical_of_canonicalizeObject escapes e ?_ ?_,
    isCanonical_of_canonicalizeObject escapes e' ?_ ?_⟩
  · show ∀ k ∈ ["domain", "exp", "iat", "nonce", "session", "v"], IsAscii k
    decide
  · simp only [RegistrationRequest.qrObject, List.forall_mem_cons, List.not_mem_nil, false_implies, implies_true,
      and_true]
    exact ⟨str _, exp, iat, str _, str _, one⟩
  · show ∀ k ∈ ["domain", "exp", "iat", "nonce", "qrSignature", "requestedDisplayName", "sessionId",
      "version"], IsAscii k
    decide
  · simp only [RegistrationRequest.registrationObject, List.forall_mem_cons, List.not_mem_nil, false_implies,
      implies_true, and_true]
    exact ⟨str _, exp, iat, str _, str _, str _, str _, one⟩

/-- A Consent in the window of a stored session has signed canonical bytes. -/
lemma ConsentCheck.isCanonical {event} (escapes : st.crates.JsonEscapes) (range : st.crates.TimestampRange)
    (c : ConsentCheck st event past) (registered : c.session.Registered st) :
    IsCanonical (consentObject c.approved c.challenge c.displayName c.nonce c.sessionId c.sentAt) c.signed := by
  obtain ⟨_, low, high⟩ := millisToUtc_grace range c.expiresAt_eq
  obtain ⟨after, before⟩ := (sentAtInQrWindow_iff ..).mp c.window
  obtain ⟨_, le⟩ := registered.window
  have sentAt : (Value.int c.sentAt).InRange := inRange_int (by omega) (by omega)
  have str (s : String) : (Value.str s).InRange := rfl
  have bool (b : Bool) : (Value.bool b).InRange := rfl
  obtain ⟨text, e, signed⟩ := canonical_ok c.signed_eq
  rw [signed]
  cases name : c.displayName with
  | none =>
    rw [name] at e
    refine isCanonical_of_canonicalizeObject escapes e ?_ ?_
    · show ∀ k ∈ ["approved", "challenge", "nonce", "sessionId", "sentAt"], IsAscii k
      decide
    · simp only [consentObject, Option.map_none, Option.toList_none, List.append_nil, List.forall_mem_cons,
        List.not_mem_nil, false_implies, implies_true, and_true]
      exact ⟨bool _, str _, str _, str _, sentAt⟩
  | some display =>
    rw [name] at e
    refine isCanonical_of_canonicalizeObject escapes e ?_ ?_
    · show ∀ k ∈ ["approved", "challenge", "nonce", "sessionId", "sentAt", "displayName"], IsAscii k
      decide
    · simp only [consentObject, Option.map_some, Option.toList_some, List.cons_append, List.nil_append,
        List.forall_mem_cons, List.not_mem_nil, false_implies, implies_true, and_true]
      exact ⟨bool _, str _, str _, str _, sentAt, str _⟩

/-- The registration of a session that is stored: both signatures were verified over the canonical bytes. -/
structure SignedRegistration (st : AppState) (request : RegistrationRequest) (row : SessionRow) : Prop where
  qr : ∃ bytes, request.qrCanonical st.crates = .ok bytes ∧ IsCanonical request.qrObject bytes ∧
    Ed25519.verify st.crates row.sitePublicKey bytes request.qrSignature = .ok ()
  registration : ∃ bytes, request.registrationCanonical st.crates = .ok bytes ∧
    IsCanonical request.registrationObject bytes ∧
    Ed25519.verify st.crates row.sitePublicKey bytes request.registrationSignature = .ok ()

/-- A Consent whose signature was verified over the canonical bytes. -/
def SignedConsent (st : AppState) (approved : Bool) (challenge : String) (displayName : Option String)
    (nonce sessionId : String) (sentAt : Int64) (keyId signature : String) : Prop :=
  ∃ bytes, consentSignedBytes st.crates approved challenge displayName nonce sessionId sentAt = .ok bytes ∧
    IsCanonical (consentObject approved challenge displayName nonce sessionId sentAt) bytes ∧
    P256.verifyConsentSignature st.crates keyId bytes signature = .ok ()

/-- A Consent that changes the database was verified over these bytes. -/
lemma Run.signedConsent (escapes : st.crates.JsonEscapes) (range : st.crates.TimestampRange) (r : Run st ls S)
    (s : Step st S lb S') {t event l a sessionId nonce sentAt approved displayName challenge keyId signature}
    (e : lb = .act t (.inbound event) l a)
    (msg : event.message? st =
      some (.consent sessionId nonce sentAt approved displayName challenge keyId signature))
    (changed : S'.db ≠ S.db) :
    SignedConsent st approved challenge displayName nonce sessionId sentAt keyId signature := by
  subst e
  have signed (c : ConsentCheck st event l.past) (mem : c.session ∈ S.db.sessions) :
      SignedConsent st approved challenge displayName nonce sessionId sentAt keyId signature := by
    cases msg.symm.trans c.message
    exact ⟨c.signed, c.signed_eq, c.isCanonical escapes range (r.represented.registered _ mem), c.verified⟩
  obtain same | ⟨_, _, _, _, e, _, ch⟩ := r.inv.step_change s
  · exact absurd same changed
  cases e
  generalize S'.db = db' at ch changed
  cases ch with
  | keep => exact absurd rfl changed
  | request c => nomatch msg.symm.trans c.message
  | refuse c _ => exact signed c.toConsentCheck c.mem
  | approve c => exact signed c.toConsentCheck c.mem
  | revoke c => nomatch msg.symm.trans c.message

/-- Every stored registration and every Consent that is acted on was verified over the bytes of RFC 8785. -/
theorem verified_bytes_are_canonical (escapes : st.crates.JsonEscapes) (range : st.crates.TimestampRange)
    (r : Run st ls S) (s : Step st S lb S') :
    (∀ row ∈ S'.db.sessions, row ∉ S.db.sessions → ∀ t request l a, lb = .act t (.register request) l a →
      SignedRegistration st request row) ∧
    ∀ t event l a sessionId nonce sentAt approved displayName challenge keyId signature,
      lb = .act t (.inbound event) l a → event.message? st =
        some (.consent sessionId nonce sentAt approved displayName challenge keyId signature) →
      S'.db ≠ S.db →
      SignedConsent st approved challenge displayName nonce sessionId sentAt keyId signature := by
  refine ⟨fun row mem new t request l a e => ?_, fun t event l a sessionId nonce sentAt approved displayName
    challenge keyId signature e msg changed => r.signedConsent escapes range s e msg changed⟩
  obtain ⟨t', input, l', a', e', ⟨old, set, w, rfl⟩ | ⟨request', rfl, c, rfl⟩⟩ := r.inv.row_written s mem new
  · cases e.symm.trans e'
    nomatch w
  · cases e.symm.trans e'
    obtain ⟨qr, registration⟩ := c.isCanonical escapes range
    exact ⟨⟨_, c.qr_eq, qr, c.qrSigned⟩, _, c.canonical_eq, registration, c.registrationSigned⟩

/-- The stubs escape as RFC 8785 asks. -/
lemma Crates.stub_escapes : Crates.stub.JsonEscapes := fun _ => rfl

/-- The Consent of Alice was. -/
theorem verified_bytes_are_canonical_alice : SignedConsent Sample.relay true Sample.alice.challenge (some "Alice")
    Sample.alice.nonce Sample.alice.sessionId Sample.loginTime Sample.phoneId
    (Sample.phoneSign (Sample.alice.consentBytes true)) := by
  obtain ⟨ls, S, l, a, S', run, s, changed⟩ := Sample.consent_step
  exact (verified_bytes_are_canonical Crates.stub_escapes Crates.stub_timestamps run s).2 _ _ _ _ _ _ _ _ _ _ _ _ rfl
    (Sample.alice_valid.consent "$consent" true) changed

end WebLoginRelay
