import WebLoginRelay.System.Semantics

/-!
# Committed changes

What the relay's transactions do to the committed database. Each structure below is one way in which a
call of the source can commit: the message and the rows it found, the checks they passed, what was read
from the clock and drawn from the random number generator, and the rows it wrote. `Change` collects
them; that every commit of every run is such a change is proved in `System.Inv`.
-/

namespace WebLoginRelay
open Text Txn

namespace Db
variable (db : Db)

/-- Insert into a replay table. -/
def reserve (row : ReplayRow) : Db := { db with replay := db.replay.insert row }

/-- Insert a session. -/
def addSession (row : SessionRow) : Db := { db with sessions := db.sessions.insert row }

/-- Insert a job, if there is one. -/
def addJob : Option DeliveryJob → Db
  | none => db
  | some job => { db with jobs := db.jobs.insert job }

/-- Insert the grant of a subject, or link the one there is. -/
def putGrant (new : NewGrant) (id : Nat) : Db :=
  match db.grants.rows.find? fun g => g.domain == new.domain && g.subjectHash == new.subjectHash with
  | some g => db.updateGrant g.domain g.subjectHash (.relink new.sessionId new.nonceHash)
  | none => { db with grants := db.grants.insert (new.row id) }

section Frame
variable (r : ReplayRow) (s : SessionRow) (j : Option DeliveryJob) (g : NewGrant) (id : Nat)

@[simp] lemma reserve_sessions : (db.reserve r).sessions = db.sessions := rfl
@[simp] lemma reserve_replay : (db.reserve r).replay = db.replay.insert r := rfl
@[simp] lemma reserve_grants : (db.reserve r).grants = db.grants := rfl
@[simp] lemma reserve_jobs : (db.reserve r).jobs = db.jobs := rfl
@[simp] lemma addSession_sessions : (db.addSession s).sessions = db.sessions.insert s := rfl
@[simp] lemma addSession_replay : (db.addSession s).replay = db.replay := rfl
@[simp] lemma addSession_grants : (db.addSession s).grants = db.grants := rfl
@[simp] lemma addSession_jobs : (db.addSession s).jobs = db.jobs := rfl
@[simp] lemma addJob_sessions : (db.addJob j).sessions = db.sessions := by cases j <;> rfl
@[simp] lemma addJob_replay : (db.addJob j).replay = db.replay := by cases j <;> rfl
@[simp] lemma addJob_grants : (db.addJob j).grants = db.grants := by cases j <;> rfl
@[simp] lemma putGrant_sessions : (db.putGrant g id).sessions = db.sessions := by
  unfold putGrant; split <;> rfl
@[simp] lemma putGrant_replay : (db.putGrant g id).replay = db.replay := by
  unfold putGrant; split <;> rfl
@[simp] lemma putGrant_jobs : (db.putGrant g id).jobs = db.jobs := by
  unfold putGrant; split <;> rfl

end Frame

end Db

section Entries
variable (db : Db)

@[simp] lemma journal_holds (e : Entry) : journal.holds e db = e.Holds db := rfl
@[simp] lemma journal_apply (e : Entry) : journal.apply e db = e.apply db := rfl
@[simp] lemma apply_sessionRead (r) : (Entry.sessionRead r).apply db = db := rfl
@[simp] lemma apply_sessionInsert (r) : (Entry.sessionInsert r).apply db = db.addSession r := rfl
@[simp] lemma apply_sessionUpdate (r c) :
    (Entry.sessionUpdate r c).apply db = db.updateSession r.id c := rfl
@[simp] lemma apply_replayInsert (r) : (Entry.replayInsert r).apply db = db.reserve r := rfl
@[simp] lemma apply_grantRead (g) : (Entry.grantRead g).apply db = db := rfl
@[simp] lemma apply_grantUpdate (g c) :
    (Entry.grantUpdate g c).apply db = db.updateGrant g.domain g.subjectHash c := rfl
@[simp] lemma apply_jobInsert (j) : (Entry.jobInsert j).apply db = db.addJob (some j) := rfl
@[simp] lemma apply_jobUpdate (j c) : (Entry.jobUpdate j c).apply db = db.updateJob j.id c := rfl

end Entries

/-- A reading of the clock. -/
def ReadClock (past : List Act) (now : Int64) : Prop := ⟨.now, now, []⟩ ∈ past

/-- Bytes drawn from the random number generator. -/
def Drawn (past : List Act) (n : Nat) (b : Bytes) : Prop :=
  ∃ h : b.length = n, ⟨.fillBytes n, ⟨b, h⟩, []⟩ ∈ past

/-- What was drawn has its length. -/
lemma drawn_of_mem {past : List Act} {n : Nat} {b : { b : Bytes // b.length = n }}
    (h : ⟨.fillBytes n, b, []⟩ ∈ past) : Drawn past n b.val := ⟨b.property, h⟩

/-- `c` was made by `AtRestKey::encrypt`. -/
def Sealed (st : AppState) (plaintext c : Bytes) : Prop :=
  ∃ nonce : Bytes, nonce.length = nonceLen ∧ encrypt st.crates st.atRest nonce plaintext = .ok c

/-- What was sealed can be read again. -/
lemma Sealed.decrypt {st : AppState} (aead : st.crates.AeadCorrect) {m c : Bytes} (h : Sealed st m c) :
    st.decrypt c = .ok m := by
  obtain ⟨nonce, len, e⟩ := h
  exact decrypt_encrypt aead len e

/-- Text that was sealed can be read again. -/
lemma Sealed.decryptText {st : AppState} (aead : st.crates.AeadCorrect) {s : String} {c : Bytes}
    (h : Sealed st (asBytes s) c) : st.decryptText c = .ok s := by
  rw [AppState.decryptText, h.decrypt aead]
  simp [bind, Except.bind]
  rfl

/-- A hash determines the text. -/
lemma AppState.lookupHash_inj {st : AppState} (hmac : st.crates.HmacCollisionFree) {s t : String}
    (h : st.lookupHash s = st.lookupHash t) : s = t := asBytes_inj (hmac _ _ _ h)

/-- A batch of jobs was claimed, and `job` is one of them. -/
def Claimed (past : List Act) (job : DeliveryJob) : Prop :=
  ∃ (jobs : List DeliveryJob) (es : List Entry),
    ⟨.auto (.claimDue 10), Except.ok jobs, es⟩ ∈ past ∧ job ∈ jobs

/-- The outcome of `enqueue`: a new row, or nothing because the `jti` was taken. -/
def Queued (past : List Act) (db : Db) (new : NewJob) : Option DeliveryJob → Prop
  | some job => (∃ id now, job = new.row id now) ∧ ¬ db.jobs.Clashes job
  | none => ⟨.exec (.enqueue new), Except.ok (0 : Nat), []⟩ ∈ past

/-- A registration that inserted its session. -/
structure Registration (st : AppState) (request : RegistrationRequest) (past : List Act) (db : Db) where
  valid : request.validate = .ok ()
  now : Int64
  clock : ReadClock past now
  unexpired : now < request.exp
  metadata : SiteMetadata
  verified : metadata.validateForDomain st.crates request.domain = .ok ()
  qr : Bytes
  qr_eq : request.qrCanonical st.crates = .ok qr
  qrSigned : Ed25519.verify st.crates metadata.publicKey qr request.qrSignature = .ok ()
  canonical : Bytes
  canonical_eq : request.registrationCanonical st.crates = .ok canonical
  registrationSigned :
    Ed25519.verify st.crates metadata.publicKey canonical request.registrationSignature = .ok ()
  nonceCiphertext : Bytes
  nonceSealed : Sealed st (asBytes request.nonce) nonceCiphertext
  expiresAt : DateTime
  expiresAt_eq : millisToUtc st (request.exp + replayGraceMs) = .ok expiresAt
  id : Nat
  isNew : ¬ db.sessions.Clashes ((request.newSession st metadata nonceCiphertext).row id)

namespace Registration
variable {st request past db} (c : Registration st request past db)

/-- The inserted row. -/
def row : SessionRow := (request.newSession st c.metadata c.nonceCiphertext).row c.id

/-- The database after it. -/
def result : Db := db.addSession c.row

end Registration

/-- A Request that bound its session to a challenge. -/
structure ChallengeIssue (st : AppState) (event : InboundEvent) (past : List Act) (db : Db) where
  sessionId : String
  nonce : String
  sentAt : Int64
  domain : String
  message : event.message? st = some (.request sessionId nonce sentAt domain)
  session : SessionRow
  mem : session ∈ db.sessions
  found : (SessionFilter.matching domain sessionId (st.lookupHash nonce)).accepts session
  now : Int64
  clock : ReadClock past now
  unexpired : ¬ session.exp < now
  window : sentAtInQrWindow sentAt session.iat session.exp
  unbound : session.challengeHash = none
  expiresAt : DateTime
  expiresAt_eq : millisToUtc st (session.exp + replayGraceMs) = .ok expiresAt
  bytes : Bytes
  drawn : Drawn past challengeBytes bytes
  roomCt : Bytes
  roomSealed : Sealed st (asBytes event.roomId) roomCt
  senderCt : Bytes
  senderSealed : Sealed st (asBytes event.sender) senderCt
  newEvent : ¬ db.replay.Clashes ⟨.requestEventId event.eventId, expiresAt⟩
  newChallenge :
    ¬ db.replay.Clashes ⟨.challengeHash (st.lookupHash (Base64url.encode st.crates bytes)), expiresAt⟩

namespace ChallengeIssue
variable {st event past db} (c : ChallengeIssue st event past db)

/-- The challenge. -/
def challenge : String := Base64url.encode st.crates c.bytes

/-- The columns the Request assigns. -/
def set : SessionSet where
  state := .challengeSent
  requestEventId := some event.eventId
  requestRoomCiphertext := some c.roomCt
  requestSenderCiphertext := some c.senderCt
  challengeHash := some (st.lookupHash c.challenge)
  challengeExpiresAt := some (challengeExpiresAt c.now c.session.exp)

/-- The database after it. -/
def result : Db :=
  ((db.reserve ⟨.requestEventId event.eventId, c.expiresAt⟩).reserve
    ⟨.challengeHash (st.lookupHash c.challenge), c.expiresAt⟩).updateSession c.session.id c.set

end ChallengeIssue

/-- A Consent that passed the checks of `process_consent`, and the session it was checked against. -/
structure ConsentCheck (st : AppState) (event : InboundEvent) (past : List Act) where
  sessionId : String
  nonce : String
  sentAt : Int64
  approved : Bool
  displayName : Option String
  challenge : String
  keyId : String
  signature : String
  message : event.message? st =
    some (.consent sessionId nonce sentAt approved displayName challenge keyId signature)
  signed : Bytes
  signed_eq :
    consentSignedBytes st.crates approved challenge displayName nonce sessionId sentAt = .ok signed
  verified : P256.verifyConsentSignature st.crates keyId signed signature = .ok ()
  session : SessionRow
  found : (SessionFilter.sessionAndNonce sessionId (st.lookupHash nonce)).accepts session
  now : Int64
  clock : ReadClock past now
  unexpired : ¬ session.exp < now
  window : sentAtInQrWindow sentAt session.iat session.exp
  challengeOpen : session.challengeExpiresAt.any (fun exp => exp < sentAt || exp < now) = false
  challenge_eq : session.challengeHash = some (st.lookupHash challenge)
  sender_eq : st.storedText session.requestSenderCiphertext = some event.sender
  room_eq : st.storedText session.requestRoomCiphertext = some event.roomId
  expiresAt : DateTime
  expiresAt_eq : millisToUtc st (session.exp + replayGraceMs) = .ok expiresAt

/-- Checks that were passed stay passed. -/
def ConsentCheck.mono {st event past past'} (c : ConsentCheck st event past) (h : past ⊆ past') :
    ConsentCheck st event past' :=
  ⟨c.sessionId, c.nonce, c.sentAt, c.approved, c.displayName, c.challenge, c.keyId, c.signature,
    c.message, c.signed, c.signed_eq, c.verified, c.session, c.found, c.now, h c.clock, c.unexpired,
    c.window, c.challengeOpen, c.challenge_eq, c.sender_eq, c.room_eq, c.expiresAt, c.expiresAt_eq⟩

/-- A Consent whose session was there, and whose event id was new. -/
structure AcceptedConsent (st : AppState) (event : InboundEvent) (past : List Act) (db : Db) extends
    ConsentCheck st event past where
  mem : session ∈ db.sessions
  newEvent : ¬ db.replay.Clashes ⟨.consentEventId event.eventId, expiresAt⟩

namespace AcceptedConsent
variable {st event past db} (c : AcceptedConsent st event past db)

/-- The columns a refusal assigns. -/
def refusal (event : InboundEvent) : SessionSet where
  state := .refused
  consentEventId := some event.eventId

/-- The database after a refusal. -/
def refused : Db :=
  (db.reserve ⟨.consentEventId event.eventId, c.expiresAt⟩).updateSession c.session.id
    (refusal event)

end AcceptedConsent

/-- An approved Consent that minted an assertion. -/
structure Mint (st : AppState) (event : InboundEvent) (past : List Act) (db : Db) extends
    AcceptedConsent st event past db where
  isApproved : approved = true
  display : String
  display_eq : displayName = some display
  sub : String
  sub_eq : derivePairwiseSub st.crates st.subjectSecret session.domain event.sender = .ok sub
  subjectCt : Bytes
  subjectSealed : Sealed st (asBytes sub) subjectCt
  userCt : Bytes
  userSealed : Sealed st (asBytes event.sender) userCt
  grantId : Nat
  bytes : Bytes
  drawn : Drawn past jtiBytes bytes
  assertion : RelayAssertion
  assertion_eq : RelayAssertion.sign st.crates st.signingKey st.signingKid session.domain sub sessionId
    nonce (Base64url.encode st.crates bytes) now (min session.exp (now + maxTtlMs)) display
    st.subjectKeyVersion = .ok assertion
  newJti : ¬ db.replay.Clashes ⟨.assertionJti (Base64url.encode st.crates bytes), expiresAt⟩
  assertionCt : Bytes
  assertionSealed : Sealed st (assertion.toBytes st.crates) assertionCt
  displayCt : Bytes
  displaySealed : Sealed st (asBytes display) displayCt
  job : Option DeliveryJob
  queued : Queued past db
    ⟨.assertion, session.domain, Base64url.encode st.crates bytes, assertionCt, sessionId,
      st.lookupHash nonce⟩ job
  isNewGrant : (∀ g ∈ db.grants, ¬ (g.domain = session.domain ∧ g.subjectHash = st.lookupHash sub)) →
    ∀ g ∈ db.grants, g.id ≠ grantId

namespace Mint
variable {st event past db} (c : Mint st event past db)

/-- The `jti`. -/
def jti : String := Base64url.encode st.crates c.bytes

/-- The grant of the subject. -/
def grant : NewGrant where
  domain := c.session.domain
  subjectHash := st.lookupHash c.sub
  subjectCiphertext := c.subjectCt
  matrixUserCiphertext := c.userCt
  sessionId := c.sessionId
  nonceHash := st.lookupHash c.nonce
  subjectKeyVersion := st.subjectKeyVersion

/-- The columns the Consent assigns. -/
def set : SessionSet where
  state := .consentReceived
  consentEventId := some event.eventId
  displayNameCiphertext := some c.displayCt
  assertionJti := some c.jti
  assertionCiphertext := some c.assertionCt

/-- The job of the assertion. -/
def newJob : NewJob where
  kind := .assertion
  domain := c.session.domain
  jti := c.jti
  payloadCiphertext := c.assertionCt
  sessionId := c.sessionId
  nonceHash := st.lookupHash c.nonce

/-- The database after it. -/
def result : Db :=
  ((((db.reserve ⟨.consentEventId event.eventId, c.expiresAt⟩).putGrant c.grant c.grantId).reserve
    ⟨.assertionJti c.jti, c.expiresAt⟩).updateSession c.session.id c.set).addJob c.job

end Mint

/-- A Revocation that revoked a grant. -/
structure Unlink (st : AppState) (event : InboundEvent) (past : List Act) (db : Db) where
  sessionId : String
  nonce : String
  sentAt : Int64
  siteAccountId : String
  reason : Option String
  message : event.message? st = some (.revocation sessionId nonce sentAt siteAccountId reason)
  session : SessionRow
  mem : session ∈ db.sessions
  found : (SessionFilter.sessionAndNonce sessionId (st.lookupHash nonce)).accepts session
  grant : GrantRow
  grant_mem : grant ∈ db.grants
  grant_domain : grant.domain = session.domain
  grant_subject : grant.subjectHash = st.lookupHash siteAccountId
  owner : st.decryptText grant.matrixUserCiphertext = .ok event.sender
  active : grant.revokedAt = none
  revokedAt : DateTime
  bytes : Bytes
  drawn : Drawn past jtiBytes bytes
  reservedAt : Int64
  reservedClock : ReadClock past reservedAt
  expiresAt : DateTime
  expiresAt_eq : millisToUtc st (reservedAt + replayGraceMs) = .ok expiresAt
  newJti : ¬ db.replay.Clashes ⟨.revocationJti (Base64url.encode st.crates bytes), expiresAt⟩
  iat : Int64
  clock : ReadClock past iat
  revocation : RelayRevocation
  revocation_eq : RelayRevocation.sign st.crates st.signingKey st.signingKid session.domain
    siteAccountId (Base64url.encode st.crates bytes) iat (reason.getD "user_requested") = .ok revocation
  payloadCt : Bytes
  payloadSealed : Sealed st (revocation.toBytes st.crates) payloadCt
  job : Option DeliveryJob
  queued : Queued past db
    ⟨.revocation, session.domain, Base64url.encode st.crates bytes, payloadCt, sessionId,
      st.lookupHash nonce⟩ job
  /-- The call looked for a grant once, and found this one. -/
  looked : ∀ domain subjectHash rows es,
    ⟨.exec (.selectGrants domain subjectHash), Except.ok rows, es⟩ ∈ past → rows = [grant]

namespace Unlink
variable {st event past db} (c : Unlink st event past db)

/-- The `jti`. -/
def jti : String := Base64url.encode st.crates c.bytes

/-- The job of the revocation. -/
def newJob : NewJob where
  kind := .revocation
  domain := c.session.domain
  jti := c.jti
  payloadCiphertext := c.payloadCt
  sessionId := c.sessionId
  nonceHash := st.lookupHash c.nonce

/-- The database after it. -/
def result : Db :=
  (((db.updateGrant c.grant.domain c.grant.subjectHash (.revoke c.revokedAt)).reserve
    ⟨.revocationJti c.jti, c.expiresAt⟩).addJob c.job).updateSession c.session.id
    { state := .revoked }

end Unlink

/-- The post of a job. -/
def DeliveryJob.post (job : DeliveryJob) (payload : Bytes) : SiteRequest where
  domain := job.domain
  path := job.kind.path
  method := .post
  extraHeaders := if job.kind = .assertion then [("Idempotency-Key", job.jti)] else []
  body := payload
  maxBody := maxSiteResponseBytes

/-- An accepted assertion that moved its session on. -/
structure Acceptance (st : AppState) (past : List Act) (db : Db) where
  job : DeliveryJob
  claimed : Claimed past job
  kind : job.kind = .assertion
  payload : Bytes
  payload_eq : st.decrypt job.payloadCiphertext = .ok payload
  response : SiteResponse
  posted : ⟨.request (job.post payload), Except.ok response, []⟩ ∈ past
  status : response.status = 202 ∨ response.status = 200
  assertion : RelayAssertion
  assertion_eq : strictFromSlice st.crates RelayAssertion.fromValue payload = .ok assertion
  session : SessionRow
  mem : session ∈ db.sessions
  found : (SessionFilter.matching job.domain job.sessionId job.nonceHash).accepts session
  roomCt : Bytes
  roomCt_eq : session.requestRoomCiphertext = some roomCt
  roomId : String
  roomId_eq : st.decryptText roomCt = .ok roomId
  nonce : String
  nonce_eq : st.decryptText session.nonceCiphertext = .ok nonce

/-- The database after it. -/
def Acceptance.result {st past db} (c : Acceptance st past db) : Db :=
  db.updateSession c.session.id { state := .assertionDelivered }

/-- What a call can commit. -/
inductive Change (st : AppState) : Input → List Act → Db → Db → Prop where
  /-- Only rows were read: an identical registration, a bound session, a revoked grant. -/
  | keep {input past db} : Change st input past db db
  | register {request past db} (c : Registration st request past db) :
    Change st (.register request) past db c.result
  | request {event past db} (c : ChallengeIssue st event past db) :
    Change st (.inbound event) past db c.result
  | refuse {event past db} (c : AcceptedConsent st event past db) (h : c.approved = false) :
    Change st (.inbound event) past db c.refused
  | approve {event past db} (c : Mint st event past db) :
    Change st (.inbound event) past db c.result
  | revoke {event past db} (c : Unlink st event past db) :
    Change st (.inbound event) past db c.result
  | deliver {past db} (c : Acceptance st past db) : Change st .tick past db c.result
  /-- `claim_due`. -/
  | claim {past db now} {jobs : List DeliveryJob} (due : ∀ j ∈ jobs, j ∈ db.jobs ∧ j.isDue now) :
    Change st .tick past db
      (journal.replay db (jobs.map (.jobUpdate · (.claim (now + retryInterval)))))
  /-- `mark_delivered` and `mark_failed`. -/
  | mark {past db status} {j job : DeliveryJob} (claimed : Claimed past j)
    (why : status = .delivered ∨ (status = .failed ∧ 8 ≤ j.attempts))
    (mem : job ∈ db.jobs) (id_eq : job.id = j.id) :
    Change st .tick past db (db.updateJob job.id (.mark status))

namespace Change
variable {st : AppState} {event : InboundEvent} {past : List Act} {db db' : Db}

/-- An approval, by its result. -/
lemma of_mint (c : Mint st event past db) (e : c.result = db') :
    Change st (.inbound event) past db db' := e ▸ .approve c

/-- A refusal, by its result. -/
lemma of_refusal (c : AcceptedConsent st event past db) (h : c.approved = false)
    (e : c.refused = db') : Change st (.inbound event) past db db' := e ▸ .refuse c h

/-- A Revocation, by its result. -/
lemma of_unlink (c : Unlink st event past db) (e : c.result = db') :
    Change st (.inbound event) past db db' := e ▸ .revoke c

/-- An accepted delivery, by its result. -/
lemma of_acceptance (c : Acceptance st past db) (e : c.result = db') :
    Change st .tick past db db' := e ▸ .deliver c

end Change

end WebLoginRelay
