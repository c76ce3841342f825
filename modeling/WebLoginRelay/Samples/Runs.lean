import WebLoginRelay.Protocol.Wire
import WebLoginRelay.Samples.Crates
import WebLoginRelay.System.Sequential

/-!
# Logins that can be run

A site and a phone that follow the protocol, over `Crates.stub`. `Login` is one login of one user; its
registration is accepted by the relay, and its messages are what the relay reads from their events,
whatever the database is. What the calls do to a database can then be computed.
-/

namespace WebLoginRelay.Sample
open Text Txn
open JsonText (length_print_str)

/-- The configuration of the relay. -/
def relay : AppState where
  crates := .stub
  atRest := List.replicate 32 1
  lookupPepper := List.replicate 32 2
  subjectSecret := List.replicate 32 3
  subjectKeyVersion := 1
  signingKey := List.replicate 32 4
  signingKid := "relay-1"
  relayUserId := matrixUserId

/-- An environment in which nothing fails and no time passes; `seed` tells the draws of calls apart. -/
def env (seed : UInt8) (now : Int64) (site : SiteRequest → SiteResponse) : Env where
  now _ := now
  bytes i n := ⟨Stub.fit n [seed, UInt8.ofNat i], Stub.length_fit ..⟩
  site _ r := .ok (site r)
  notice _ := .ok ()
  begun _ := .ok (now.toInt * 1000)
  fault _ := false
  committed _ := .ok ()
  rolledBack _ := .ok ()
  autoNow _ := now.toInt * 1000
  locked _ := []

/-- The key of every site. -/
def siteKey : Bytes := List.replicate 32 9

/-- The signature of a site. -/
def siteSign (m : Bytes) : String := Ed25519.sign .stub siteKey m

/-- The key id of every phone. -/
def phoneId : String := "did:key:zDnaerDaTF5BXEavCrfRZEk316dpbLsfPDZ3WJ5hRTPFU2169"

/-- The signature of a phone. -/
def phoneSign (m : Bytes) : String :=
  let key := (P256.decodeDidKey .stub phoneId).toOption.getD []
  Base64url.encode .stub (Stub.fit 64 (key ++ Crates.stub.sha256 m))

/-- What is encoded can be decoded. -/
lemma decode_encode (b : Bytes) : Base64url.decode .stub (Base64url.encode .stub b) = .ok b :=
  Base64url.decode_encode Crates.stub_base64 Crates.stub_base64Shape b

/-- The relay accepts the signature of a site. -/
lemma verify_siteSign (m : Bytes) :
    Ed25519.verify .stub (Base64url.encode .stub siteKey) m (siteSign m) = .ok () := by
  have key : Ed25519.parsePublicKey .stub (Base64url.encode .stub siteKey) = .ok siteKey := by
    rw [Ed25519.parsePublicKey, decode_encode]
    rfl
  rw [Ed25519.verify, key, ok_bind, siteSign, Ed25519.sign, decode_encode, ok_bind]
  simp [Crates.stub, Stub.length_fit]
  rfl

/-- The relay accepts the signature of a phone. -/
lemma verify_phoneSign (m : Bytes) :
    P256.verifyConsentSignature .stub phoneId m (phoneSign m) = .ok () := by
  obtain ⟨key, e⟩ : ∃ key, P256.decodeDidKey .stub phoneId = .ok (3 :: key) :=
    ⟨((P256.decodeDidKey .stub phoneId).toOption.getD []).tail, by decide +kernel⟩
  have raw : phoneSign m =
      Base64url.encode .stub (Stub.fit 64 (3 :: key ++ Crates.stub.sha256 m)) := by
    rw [phoneSign, e]
    rfl
  have first : P256.looksLikeDer (Stub.fit 64 (3 :: key ++ Crates.stub.sha256 m)) = false := rfl
  rw [P256.verifyConsentSignature, e, ok_bind, raw, decode_encode, ok_bind,
    if_neg (by simp [Stub.length_fit]), first]
  simp [Crates.stub, Stub.length_fit]
  rfl

/-- The text of `n` bytes consists of characters of the protocol's identifiers. -/
lemma encode_urlSafe {b : Bytes} {n : Nat} (h : b.length = n) :
    (Base64url.encode .stub b).length = (4 * n + 2) / 3 ∧
      ∀ c ∈ (Base64url.encode .stub b).toList, isUrlSafe c :=
  h ▸ Base64url.encode_urlSafe Crates.stub_base64Shape b

/-- A signature has the shape the protocol asks for. -/
lemma validateSignatureB64_encode {b : Bytes} (h : b.length = 64) :
    validateSignatureB64 (Base64url.encode .stub b) = .ok () :=
  validateSignatureB64_iff.mpr (encode_urlSafe h)

/-- The keys of the signed objects are distinct. -/
lemma qrCanonical_ok (r : RegistrationRequest) :
    r.qrCanonical .stub = .ok ((r.qrCanonical .stub).toOption.getD []) := by
  unfold RegistrationRequest.qrCanonical Jcs.canonicalizeObject
  rw [if_pos (by simp)]
  rfl

/-- The canonical form of a registration exists. -/
lemma registrationCanonical_ok (r : RegistrationRequest) :
    r.registrationCanonical .stub = .ok ((r.registrationCanonical .stub).toOption.getD []) := by
  unfold RegistrationRequest.registrationCanonical Jcs.canonicalizeObject
  rw [if_pos (by simp)]
  rfl

/-- A site signs the QR code. -/
def signQr (r : RegistrationRequest) : RegistrationRequest :=
  { r with qrSignature := siteSign ((r.qrCanonical .stub).toOption.getD []) }

/-- A site signs a registration. -/
def signRegistration (r : RegistrationRequest) : RegistrationRequest :=
  { signQr r with
    registrationSignature := siteSign (((signQr r).registrationCanonical .stub).toOption.getD []) }

/-- The signature of the registration is not part of what the QR code signs. -/
lemma qrCanonical_signRegistration (r : RegistrationRequest) :
    (signRegistration r).qrCanonical .stub = r.qrCanonical .stub := by
  simp only [RegistrationRequest.qrCanonical, signRegistration, signQr]

/-- The signature of the registration is not part of what it signs. -/
lemma registrationCanonical_signRegistration (r : RegistrationRequest) :
    (signRegistration r).registrationCanonical .stub = (signQr r).registrationCanonical .stub := by
  simp only [RegistrationRequest.registrationCanonical, signRegistration]

/-- The object a site publishes its metadata as. -/
def metadataObject (m : SiteMetadata) : List (String × Value) :=
  [("version", .int m.version), ("domain", .str m.domain), ("displayName", .str m.displayName),
    ("publicKey", .str m.publicKey), ("signature", .str m.signature)]

/-- The relay reads the metadata of a site. -/
lemma parsed_metadata (m : SiteMetadata) : strictFromSlice .stub SiteMetadata.fromValue
    (Crates.stub.jsonToVec (.obj (metadataObject m))) = .ok m :=
  strictFromSlice_jsonToVec Crates.stub_json (by simp [metadataObject]) (by simp [metadataObject]) rfl

/-- The room of a user and the relay. -/
def room (user : String) : RoomSnapshot where
  encrypted := true
  isDirect := true
  members := [user, matrixUserId]
  sender := user
  relayUserId := matrixUserId

/-- A Matrix event with a message, in the room of its sender. -/
def event (eventId user : String) (m : MatrixMessage) : InboundEvent where
  eventId
  roomId := "!" ++ user
  sender := user
  decrypted := true
  redacted := false
  body := m.body .stub
  room := room user

/-- The relay reads the message of an event. -/
lemma message_event {eventId user : String} {m : MatrixMessage} (ne : user ≠ matrixUserId)
    (direct : checkRoom (room user) = .ok ()) (valid : m.validateInbound = .ok ())
    (short : (Crates.stub.jsonToVec m.toValue).length ≤ maxDecodedBody) :
    (event eventId user m).message? relay = some m := by
  have decoded := MatrixMessage.decode_body Crates.stub_base64 Crates.stub_base64Shape
    Crates.stub_json valid short
  have ne' : ¬ (event eventId user m).sender = relay.relayUserId := ne
  have direct' : checkRoom (event eventId user m).room = .ok () := direct
  have decoded' : MatrixMessage.decode relay.crates (event eventId user m).body = .ok m := decoded
  rw [InboundEvent.message?, if_neg (by simp [event]), if_neg ne', direct', decoded']
  rfl

/-! ## Logins -/

/-- The time of every call of a login. -/
def loginTime : Int64 := 1000

/-- One login of one user; what its calls draw starts with `seed` and the numbers after it. -/
structure Login where
  domain : String
  sessionId : String
  nonce : String
  user : String
  seed : UInt8

namespace Login
variable (L : Login)

/-- The registration before it is signed. -/
def unsigned : RegistrationRequest where
  version := 1
  domain := L.domain
  sessionId := L.sessionId
  nonce := L.nonce
  iat := 0
  exp := 300000
  requestedDisplayName := "Alice"
  qrSignature := ""
  registrationSignature := ""

/-- The registration with the signature of the QR code. -/
def signed : RegistrationRequest :=
  { L.unsigned with qrSignature := siteSign ((L.unsigned.qrCanonical .stub).toOption.getD []) }

/-- The registration of the session. -/
def registration : RegistrationRequest :=
  { L.signed with
    registrationSignature := siteSign ((L.signed.registrationCanonical .stub).toOption.getD []) }

/-- The registration of the session with another window. -/
def windowed (iat exp : Int64) : RegistrationRequest := signRegistration { L.unsigned with iat, exp }

/-- What the site signs in its metadata. -/
def metadataFields : List (String × Value) :=
  [("displayName", .str "Site"), ("domain", .str L.domain),
    ("publicKey", .str (Base64url.encode .stub siteKey)), ("version", .int 1)]

/-- The metadata of the site. -/
def metadata : SiteMetadata where
  version := 1
  domain := L.domain
  displayName := "Site"
  publicKey := Base64url.encode .stub siteKey
  signature := siteSign (asBytes (Jcs.writeValue .stub (.obj L.metadataFields)))

/-- The site answers with its metadata. -/
def site (_ : SiteRequest) : SiteResponse where
  status := 200
  body := Crates.stub.jsonToVec (.obj (metadataObject L.metadata))

/-- The fields are ones the relay accepts. -/
structure Valid : Prop where
  domain : validateDomain L.domain = .ok ()
  sessionId : validateId L.sessionId = .ok ()
  nonce : validateId L.nonce = .ok ()
  user : L.user ≠ matrixUserId
  room : checkRoom (room L.user) = .ok ()

variable {L}

/-- A registration with a window passes its checks. -/
lemma Valid.validate_windowed (v : L.Valid) {iat exp : Int64} (window : validateWindow iat exp = .ok ()) :
    (L.windowed iat exp).validate = .ok () := by
  have qr : validateSignatureB64 (L.windowed iat exp).qrSignature = .ok () :=
    validateSignatureB64_encode (Stub.length_fit ..)
  have registration : validateSignatureB64 (L.windowed iat exp).registrationSignature = .ok () :=
    validateSignatureB64_encode (Stub.length_fit ..)
  have window : validateWindow (L.windowed iat exp).iat (L.windowed iat exp).exp = .ok () := window
  have name : validateDisplayName (L.windowed iat exp).requestedDisplayName false = .ok () := rfl
  have domain : validateDomain (L.windowed iat exp).domain = .ok () := v.domain
  have sessionId : validateId (L.windowed iat exp).sessionId = .ok () := v.sessionId
  have nonce : validateId (L.windowed iat exp).nonce = .ok () := v.nonce
  have version : ¬ (L.windowed iat exp).version ≠ protocolVersion := fun h => h rfl
  rw [RegistrationRequest.validate, if_neg version, domain, sessionId, nonce, window, name, qr,
    registration]
  rfl

/-- The registration of a login is valid. -/
lemma Valid.registration (v : L.Valid) : L.registration.validate = .ok () := by
  have window : validateWindow 0 300000 = .ok () := rfl
  exact v.validate_windowed window

/-- The metadata of its site is valid. -/
lemma Valid.metadata (v : L.Valid) : L.metadata.validateForDomain .stub L.domain = .ok () := by
  have canonical : Jcs.canonicalizeObject .stub L.metadataFields =
      .ok (Jcs.writeValue .stub (.obj L.metadataFields)) := if_pos (by simp [metadataFields])
  have domain : validateDomain L.metadata.domain = .ok () := v.domain
  have version : ¬ L.metadata.version ≠ protocolVersion := fun h => h rfl
  have same : ¬ L.metadata.domain ≠ L.domain := fun h => h rfl
  have name : ¬ (isBlank L.metadata.displayName ∨ len L.metadata.displayName > maxDisplayName) := by
    show ¬ (isBlank "Site" ∨ len "Site" > maxDisplayName)
    decide
  have key : ¬ len L.metadata.publicKey ≠ 43 := fun h => h (Crates.stub_base64Shape siteKey).1
  have verified : Ed25519.verify .stub L.metadata.publicKey
      (asBytes (Jcs.writeValue .stub (.obj L.metadataFields))) L.metadata.signature = .ok () :=
    verify_siteSign _
  rw [SiteMetadata.validateForDomain, if_neg version, domain, if_neg same, if_neg name, if_neg key]
  simp only [ok_bind]
  refine (congrArg (Except.bind · _) canonical).trans ((ok_bind _ _).trans ?_)
  rw [verified]
  rfl

/-- What the relay has done before it stores the session. -/
def verified (L : Login) : Local where
  past := [⟨.now, loginTime, []⟩,
    ⟨.request (metadataRequest L.domain), Except.ok (L.site (metadataRequest L.domain)), []⟩]

variable (L) (db : Db) (seqs : Seqs)

/-- After the registration. -/
def registered : Env.Final Result :=
  (env L.seed loginTime L.site).run (Result.registered <$> (storeSession relay L.registration L.metadata).run)
    db seqs L.verified

variable {L}

/-- The relay accepts a registration with a window that is not over. -/
lemma Valid.call_windowed (v : L.Valid) {iat exp : Int64} (window : validateWindow iat exp = .ok ())
    (unexpired : loginTime < exp) :
    (env L.seed loginTime L.site).call relay (.register (L.windowed iat exp)) db seqs =
      (env L.seed loginTime L.site).run
        (Result.registered <$> (storeSession relay (L.windowed iat exp) L.metadata).run) db seqs L.verified := by
  have run := @Env.run_registerSession relay (env L.seed loginTime L.site) _ _ _ _ _ db seqs
    (v.validate_windowed window) (Int64.not_le.mpr unexpired) rfl (parsed_metadata L.metadata) v.metadata
    ((qrCanonical_signRegistration _).trans (qrCanonical_ok _)) (verify_siteSign _)
    ((registrationCanonical_signRegistration _).trans (registrationCanonical_ok _)) (verify_siteSign _)
  rw [Env.call, Input.prog, map_eq_pure_bind, Env.run_bind, run, map_eq_pure_bind, Env.run_bind]
  rfl

/-- The relay accepts the registration. -/
lemma Valid.call_register (v : L.Valid) :
    (env L.seed loginTime L.site).call relay (.register L.registration) db seqs = L.registered db seqs := by
  have window : validateWindow 0 300000 = .ok () := rfl
  have unexpired : loginTime < (300000 : Int64) := by decide
  exact v.call_windowed db seqs window unexpired

variable (L)

/-- The Request of the phone. -/
def requestMessage : MatrixMessage := .request L.sessionId L.nonce loginTime L.domain

/-- The event of the Request. -/
def request : InboundEvent := event ("$request-" ++ L.sessionId) L.user L.requestMessage

/-- The challenge of the session: the fifth answer to the Request. -/
def challenge : String := Base64url.encode .stub (Stub.fit challengeBytes [L.seed + 1, 4])

/-- The name in a Consent. -/
def displayName (approved : Bool) : Option String := if approved then some "Alice" else none

/-- What a Consent signs. -/
def consentBytes (approved : Bool) : Bytes :=
  (consentSignedBytes .stub approved L.challenge (displayName approved) L.nonce L.sessionId
    loginTime).toOption.getD []

/-- What the phone signs. -/
lemma consentBytes_eq (approved : Bool) : consentSignedBytes .stub approved L.challenge
    (displayName approved) L.nonce L.sessionId loginTime = .ok (L.consentBytes approved) := by
  cases approved with
  | false =>
    unfold consentBytes consentSignedBytes Jcs.canonicalizeObject
    simp only [displayName, Bool.false_eq_true, if_false]
    rw [if_pos (by simp)]
    rfl
  | true =>
    unfold consentBytes consentSignedBytes Jcs.canonicalizeObject
    simp only [displayName, if_true]
    rw [if_pos (by simp)]
    rfl

/-- A Consent of the phone. -/
def consentMessage (approved : Bool) : MatrixMessage :=
  .consent L.sessionId L.nonce loginTime approved (displayName approved) L.challenge phoneId
    (phoneSign (L.consentBytes approved))

/-- The event of a Consent. -/
def consent (eventId : String) (approved : Bool) : InboundEvent :=
  event eventId L.user (L.consentMessage approved)

/-- The subject of the user at the site. -/
def subject : String := (derivePairwiseSub .stub relay.subjectSecret L.domain L.user).toOption.getD ""

/-- A Revocation for an account that names the session. -/
def revocationMessage (account : String) : MatrixMessage :=
  .revocation L.sessionId L.nonce loginTime account none

/-- The event of a Revocation by `user`. -/
def revocation (eventId user account : String) : InboundEvent :=
  event eventId user (L.revocationMessage account)

/-- A challenge is a token of 22 characters. -/
lemma challenge_urlSafe : L.challenge.length = 22 ∧ ∀ c ∈ L.challenge.toList, isUrlSafe c :=
  encode_urlSafe (n := challengeBytes) (Stub.length_fit ..)

variable {L}

/-- The names of an accepted login are short. -/
lemma Valid.lengths (v : L.Valid) :
    L.sessionId.length ≤ 128 ∧ L.nonce.length ≤ 128 ∧ L.domain.length ≤ 253 :=
  ⟨(validateId_iff.mp v.sessionId).2.1, (validateId_iff.mp v.nonce).2.1,
    (length_le_len _).trans (len_of_validateDomain v.domain)⟩

/-- The Request fits in a message. -/
lemma Valid.request_short (v : L.Valid) :
    (Crates.stub.jsonToVec L.requestMessage.toValue).length ≤ maxDecodedBody := by
  obtain ⟨hs, hn, hd⟩ := v.lengths
  refine MatrixMessage.short_of_bounds Crates.stub_compact (k := 9) (b := 6 * 253 + 2) rfl (by simp)
    (by simp; decide) ?_ (by simp [maxDecodedBody])
  simp only [List.forall_mem_cons, List.not_mem_nil, false_implies, implies_true, and_true]
  exact ⟨length_print_str (by decide), length_print_str (by omega), length_print_str (by omega),
    by decide, length_print_str hd⟩

/-- The Consent fits in a message. -/
lemma Valid.consent_short (v : L.Valid) (approved : Bool) :
    (Crates.stub.jsonToVec (L.consentMessage approved).toValue).length ≤ maxDecodedBody := by
  obtain ⟨hs, hn, _⟩ := v.lengths
  have challenge := L.challenge_urlSafe.1
  have signature : (phoneSign (L.consentBytes approved)).length = 86 :=
    (encode_urlSafe (n := 64) (Stub.length_fit ..)).1
  refine MatrixMessage.short_of_bounds Crates.stub_compact (k := 11) (b := 6 * 128 + 2) rfl (by simp)
    (by simp; decide) ?_ (by simp [maxDecodedBody])
  simp only [List.forall_mem_cons, List.not_mem_nil, false_implies, implies_true, and_true]
  refine ⟨length_print_str (by decide), length_print_str hs, length_print_str hn, by decide, ?_, ?_,
    length_print_str (by omega), length_print_str (by decide), length_print_str (by omega)⟩
  · cases approved <;> decide
  · cases approved <;> decide

/-- The event of the Request carries it. -/
lemma Valid.request (v : L.Valid) :
    L.request.message? relay = some L.requestMessage := by
  refine message_event v.user v.room ?_ v.request_short
  rw [requestMessage, MatrixMessage.validateInbound, v.sessionId, v.nonce, v.domain]
  rfl

/-- The event of the Consent carries it. -/
lemma Valid.consent (v : L.Valid) (eventId : String) (approved : Bool) :
    (L.consent eventId approved).message? relay = some (L.consentMessage approved) := by
  refine message_event v.user v.room ?_ (v.consent_short approved)
  have signature : validateSignatureB64 (phoneSign (L.consentBytes approved)) = .ok () :=
    validateSignatureB64_encode (Stub.length_fit ..)
  have challenge : validateChallengeToken L.challenge = .ok () := by
    obtain ⟨length, safe⟩ := L.challenge_urlSafe
    exact validateChallengeToken_iff.mpr ⟨by omega, by omega, safe⟩
  have key : ¬ (!startsWith phoneId "did:" ∨ len phoneId > 512) := by decide
  cases approved with
  | false =>
    simp only [consentMessage, displayName, Bool.false_eq_true, if_false, MatrixMessage.validateInbound,
      v.sessionId, v.nonce, challenge, signature, if_neg key]
    rfl
  | true =>
    simp only [consentMessage, displayName, if_true, MatrixMessage.validateInbound, v.sessionId, v.nonce,
      challenge, signature, if_neg key]
    rfl

/-- The relay reads a Revocation. -/
lemma Valid.revocation (v : L.Valid) {user account : String} (eventId : String) (ne : user ≠ matrixUserId)
    (direct : checkRoom (Sample.room user) = .ok ()) (valid : validateSiteAccountId account = .ok ()) :
    (L.revocation eventId user account).message? relay = some (L.revocationMessage account) := by
  obtain ⟨hs, hn, _⟩ := v.lengths
  have ha := (validateSiteAccountId_iff.mp valid).2.1
  refine message_event ne direct ?_ ?_
  · rw [revocationMessage, MatrixMessage.validateInbound, v.sessionId, v.nonce, valid]
    rfl
  · refine MatrixMessage.short_of_bounds Crates.stub_compact (k := 13) (b := 6 * 128 + 2) rfl (by simp)
      (by simp; decide) ?_ (by simp [maxDecodedBody])
    simp only [List.forall_mem_cons, List.not_mem_nil, false_implies, implies_true, and_true]
    exact ⟨length_print_str (by decide), length_print_str hs,
      length_print_str hn, by decide, length_print_str ha, by decide⟩

/-! ## What the calls compute -/

variable (L)

/-- The program of the call on the Request. -/
def requestProg : Prog Op Op.Resp Result :=
  Result.handled <$> (processRequest relay L.request L.sessionId L.nonce loginTime L.domain).run

/-- The program of the call on a Consent, whose signature is accepted. -/
def consentProg (eventId : String) (approved : Bool) : Prog Op Op.Resp Result :=
  Result.handled <$> ExceptT.run do
    let now ← Relay.nowMs
    Relay.inTx do
      match ← getBySessionAndNonce L.sessionId (relay.lookupHash L.nonce) with
      | none => throw (.problem .sessionNotFound)
      | some session =>
        consentOn relay (L.consent eventId approved) L.sessionId L.nonce loginTime approved
          (displayName approved) L.challenge now session

/-- The program of the call on a Revocation. -/
def revocationProg (eventId user account : String) : Prog Op Op.Resp Result :=
  Result.handled <$> (processRevocation relay (L.revocation eventId user account) L.sessionId L.nonce
    account none).run

variable (db : Db) (seqs : Seqs)

/-- After the Request. -/
def requested : Env.Final Result := (env (L.seed + 1) loginTime L.site).run L.requestProg db seqs {}

/-- After a Consent. -/
def consented (seed : UInt8) (eventId : String) (approved : Bool) : Env.Final Result :=
  (env seed loginTime L.site).run (L.consentProg eventId approved) db seqs {}

/-- After a Revocation. -/
def revoked (seed : UInt8) (eventId user account : String) : Env.Final Result :=
  (env seed loginTime L.site).run (L.revocationProg eventId user account) db seqs {}

variable {L db seqs} {C : Sys → Label → Prop} {S₀ : Sys} {n : Nat} {ls : List Label}
  {F : Env.Final Result}

/-- The registration continues a run. -/
lemma Valid.registers (v : L.Valid) (h : Reaches relay C S₀ n ls db seqs) (e : L.registered db seqs = F)
    (closed : F.loc.log = []) (start : ∀ S, C S (.spawn n (.register L.registration)))
    (ok : ∀ S l a, C S (.act n (.register L.registration) l a)) :
    Reaches relay C S₀ (n + 1)
      (ls ++ (env L.seed loginTime L.site).labels relay n (.register L.registration) db seqs) F.db F.seqs :=
  h.call ((v.call_register db seqs).trans e) trivial closed start fun _ _ _ S₁ _ _ => ok S₁ _ _

/-- The call on the Request, evaluated. -/
lemma Valid.call_request (v : L.Valid) (e : L.requested db seqs = F) :
    (env (L.seed + 1) loginTime L.site).call relay (.inbound L.request) db seqs = F := by
  rw [Env.call, Input.prog_request v.request, ← e]
  rfl

/-- The Request continues a run. -/
lemma Valid.requests (v : L.Valid) (h : Reaches relay C S₀ n ls db seqs) (e : L.requested db seqs = F)
    (closed : F.loc.log = []) (start : ∀ S, C S (.spawn n (.inbound L.request)))
    (ok : ∀ S l a, C S (.act n (.inbound L.request) l a)) :
    Reaches relay C S₀ (n + 1)
      (ls ++ (env (L.seed + 1) loginTime L.site).labels relay n (.inbound L.request) db seqs)
      F.db F.seqs :=
  h.call (v.call_request e) rfl closed start fun _ _ _ S₁ _ _ => ok S₁ _ _

section Consent
variable {seed : UInt8} {eventId : String} {approved : Bool}

/-- What the call on the Consent does. -/
lemma Valid.prog_consent (v : L.Valid) :
    Input.prog relay (.inbound (L.consent eventId approved)) = L.consentProg eventId approved := by
  have signed : consentSignedBytes relay.crates approved L.challenge (displayName approved) L.nonce
    L.sessionId loginTime = .ok (L.consentBytes approved) := L.consentBytes_eq approved
  have verified : P256.verifyConsentSignature relay.crates phoneId (L.consentBytes approved)
    (phoneSign (L.consentBytes approved)) = .ok () := verify_phoneSign _
  rw [Input.prog_consent (v.consent eventId approved), processConsent_verified signed verified]
  rfl

/-- The call on the Consent, evaluated. -/
lemma Valid.call_consent (v : L.Valid) (e : L.consented db seqs seed eventId approved = F) :
    (env seed loginTime L.site).call relay (.inbound (L.consent eventId approved)) db seqs = F := by
  rw [Env.call, v.prog_consent, ← e]
  rfl

/-- A Consent continues a run. -/
lemma Valid.consents (v : L.Valid) (h : Reaches relay C S₀ n ls db seqs)
    (e : L.consented db seqs seed eventId approved = F) (closed : F.loc.log = [])
    (start : ∀ S, C S (.spawn n (.inbound (L.consent eventId approved))))
    (ok : ∀ m ∈ (env seed loginTime L.site).trace (L.consentProg eventId approved) db seqs {}, ∀ S S₁,
      S.Quiet n → m.In n (.inbound (L.consent eventId approved)) S S₁ →
      C S₁ (m.label n (.inbound (L.consent eventId approved)))) :
    Reaches relay C S₀ (n + 1)
      (ls ++ (env seed loginTime L.site).labels relay n (.inbound (L.consent eventId approved)) db seqs)
      F.db F.seqs := by
  refine h.call (v.call_consent e) rfl closed start ?_
  rw [v.prog_consent]
  exact ok

end Consent

section Revocation
variable {seed : UInt8} {eventId user account : String}
  (msg : (L.revocation eventId user account).message? relay = some (L.revocationMessage account))
include msg

/-- The call on a Revocation, evaluated. -/
lemma call_revocation (e : L.revoked db seqs seed eventId user account = F) :
    (env seed loginTime L.site).call relay (.inbound (L.revocation eventId user account)) db seqs = F := by
  rw [Env.call, Input.prog_revocation msg, ← e]
  rfl

/-- A Revocation continues a run. -/
lemma revokes (h : Reaches relay C S₀ n ls db seqs)
    (e : L.revoked db seqs seed eventId user account = F) (closed : F.loc.log = [])
    (start : ∀ S, C S (.spawn n (.inbound (L.revocation eventId user account))))
    (ok : ∀ m ∈ (env seed loginTime L.site).trace (L.revocationProg eventId user account) db seqs {},
      ∀ S S₁, S.Quiet n → m.In n (.inbound (L.revocation eventId user account)) S S₁ →
      C S₁ (m.label n (.inbound (L.revocation eventId user account)))) :
    Reaches relay C S₀ (n + 1) (ls ++ (env seed loginTime L.site).labels relay n
      (.inbound (L.revocation eventId user account)) db seqs) F.db F.seqs := by
  refine h.call (call_revocation msg e) rfl closed start ?_
  rw [Input.prog_revocation msg]
  exact ok

end Revocation

variable (L) in
/-- What the calls of a login compute, one after the other. -/
structure Calls (db : Db) (seqs : Seqs) (seed : UInt8) (eventId : String) where
  registered : Env.Final Result
  requested : Env.Final Result
  consented : Env.Final Result
  register_eq : L.registered db seqs = registered
  request_eq : L.requested registered.db registered.seqs = requested
  consent_eq : L.consented requested.db requested.seqs seed eventId true = consented
  closed : registered.loc.log = [] ∧ requested.loc.log = [] ∧ consented.loc.log = []

/-- A whole login continues a run. -/
lemma Valid.logsIn (v : L.Valid) {seed : UInt8} {eventId : String} (c : L.Calls db seqs seed eventId)
    (h : Reaches relay (fun _ _ => True) S₀ n ls db seqs) :
    ∃ ls', Reaches relay (fun _ _ => True) S₀ (n + 3) ls' c.consented.db c.consented.seqs := by
  have r := v.registers h c.register_eq c.closed.1 (fun _ => trivial) fun _ _ _ => trivial
  have q := v.requests r c.request_eq c.closed.2.1 (fun _ => trivial) fun _ _ _ => trivial
  exact ⟨_, v.consents q c.consent_eq c.closed.2.2 (fun _ => trivial) fun _ _ _ _ _ _ => trivial⟩

end Login

/-! ## Deliveries -/

/-- The sites are down. -/
def down (_ : SiteRequest) : SiteResponse := ⟨500, []⟩

/-- The program of a delivery. -/
def tickProg : Prog Op Op.Resp Result := Result.ticked <$> (tick relay).run

/-- What a tick does. -/
lemma prog_tick : Input.prog relay .tick = tickProg := rfl

/-- After a delivery while the sites are down. -/
def ticked (db : Db) (seqs : Seqs) (now : Int64) : Env.Final Result :=
  (env 0 now down).run tickProg db seqs {}

-- what a call computes is evaluated by the kernel only
attribute [irreducible] Login.registered Login.requested Login.consented Login.revoked ticked

/-! ## Logins of Alice -/

/-- A login of Alice. -/
def alice : Login := ⟨"a.io", "session-of-alice", "nonce-of-alice-1", "@a:h", 10⟩

/-- The login of Alice is valid. -/
lemma alice_valid : alice.Valid where
  domain := by decide +kernel
  sessionId := by decide +kernel
  nonce := by decide +kernel
  user := by decide
  room := by decide +kernel

/-- The session of Alice is registered. -/
def registered : Env.Final Result := alice.registered Db.empty {}

/-- Alice has got her challenge. -/
def requested : Env.Final Result := alice.requested registered.db registered.seqs

/-- Alice has approved the login. -/
def consented : Env.Final Result := alice.consented requested.db requested.seqs 12 "$consent" true

/-- The labels of the registration and of the Request. -/
def requestedLabels : List Label :=
  (env alice.seed loginTime alice.site).labels relay 0 (.register alice.registration) Db.empty {} ++
    (env (alice.seed + 1) loginTime alice.site).labels relay 1 (.inbound alice.request) registered.db
      registered.seqs

/-- The assertion of Alice. -/
def assertion : RelayAssertion where
  version := 1
  iss := relayOrigin
  aud := alice.domain
  sub := alice.subject
  sessionId := alice.sessionId
  nonce := alice.nonce
  jti := "DAcAAAAAAAAAAAAAAAAAAA"
  iat := loginTime
  nbf := loginTime
  exp := 300000
  displayName := "Alice"
  subjectKeyVersion := 1
  kid := relay.signingKid
  signature :=
    "BAQEBAQEBAQEBAQEBAQEBAQEBAQEBAQEBAQEBAQEBAR7ImF1ZCI6ImEuaW8iLCJkaXNwbGF5TmFtZSI6IkFsaQ"

/-- The kind, the domain and the payload of a job. -/
def content (j : DeliveryJob) : JobKind × String × Option Bytes :=
  (j.kind, j.domain, (relay.decrypt j.payloadCiphertext).toOption)

/-- The content of a job is what its ciphertext decrypts to. -/
lemma decrypt_of_content {j : DeliveryJob} {kind : JobKind} {domain : String} {payload : Bytes}
    (h : content j = (kind, domain, some payload)) :
    j.kind = kind ∧ j.domain = domain ∧ relay.decrypt j.payloadCiphertext = .ok payload := by
  simp only [content, Prod.mk.injEq] at h
  obtain ⟨kind, domain, payload⟩ := h
  refine ⟨kind, domain, ?_⟩
  cases e : relay.decrypt j.payloadCiphertext with
  | error x =>
    rw [e] at payload
    nomatch payload
  | ok b =>
    rw [e] at payload
    exact congrArg _ (Option.some.inj payload)

/-- The login of Alice leaves one job. -/
lemma consented_jobs : consented.db.jobs.rows.map content =
    [(.assertion, "a.io", some (assertion.toBytes .stub))] := by
  decide +kernel

/-- Its calls leave no transaction open. -/
lemma calls_closed : registered.loc.log = [] ∧ requested.loc.log = [] ∧ consented.loc.log = [] := by
  decide +kernel

variable {C : Sys → Label → Prop}

/-- The relay gets to the challenge in every kind of run that does not restrict Requests. -/
lemma reaches_requested (spawn : ∀ S n i, C S (.spawn n i))
    (register : ∀ S n r l a, C S (.act n (.register r) l a))
    (request : ∀ S n l a, C S (.act n (.inbound alice.request) l a)) :
    Reaches relay C Sys.init 2 requestedLabels requested.db requested.seqs := by
  have r : Reaches relay C Sys.init 1 _ registered.db registered.seqs :=
    alice_valid.registers .init rfl calls_closed.1 (fun S => spawn S 0 _) fun S => register S 0 _
  exact alice_valid.requests r rfl calls_closed.2.1 (fun S => spawn S 1 _) fun S => request S 1

/-- The labels up to the Consent. -/
def consentedLabels : List Label :=
  requestedLabels ++ (env 12 loginTime alice.site).labels relay 2 (.inbound (alice.consent "$consent" true))
    requested.db requested.seqs

/-- What happens at the Consent of Alice. -/
def consentTrace : List Moment :=
  (env 12 loginTime alice.site).trace (alice.consentProg "$consent" true) requested.db requested.seqs {}

/-- The relay gets to the assertion in every kind of run that allows the Consent. -/
lemma reaches_consented (r : Reaches relay C Sys.init 2 requestedLabels requested.db requested.seqs)
    (spawn : ∀ S n i, C S (.spawn n i))
    (consent : ∀ m ∈ consentTrace, ∀ S S₁, S.Quiet 2 →
      m.In 2 (.inbound (alice.consent "$consent" true)) S S₁ →
      C S₁ (m.label 2 (.inbound (alice.consent "$consent" true)))) :
    Reaches relay C Sys.init 3 consentedLabels consented.db consented.seqs :=
  alice_valid.consents r rfl calls_closed.2.2 (fun S => spawn S 2 _) consent

/-- The relay gets there in any case. -/
lemma reaches_plain :
    Reaches relay (fun _ _ => True) Sys.init 3 consentedLabels consented.db consented.seqs :=
  reaches_consented (reaches_requested (fun _ _ _ => trivial) (fun _ _ _ _ _ => trivial)
    fun _ _ _ _ => trivial) (fun _ _ _ => trivial) fun _ _ _ _ _ _ => trivial

/-- A delivery is a call. -/
lemma call_tick {db : Db} {seqs : Seqs} {now : Int64} {F : Env.Final Result}
    (e : ticked db seqs now = F) : (env 0 now down).call relay .tick db seqs = F := by
  unfold ticked at e
  exact e

end WebLoginRelay.Sample
