import WebLoginRelay.Db.Access
import WebLoginRelay.Protocol.Messages
import WebLoginRelay.RoomPolicy

/-!
# Login

`src/services/login.rs`: the three messages a phone sends over Matrix. Each handler is one function of
the source; `process_consent` and `process_revocation` are cut where their transaction has found its
rows, so that a statement about the lookup and one about what follows can be made separately. Counters
and log lines are left out.
-/

namespace WebLoginRelay
open Text Relay

/-- `InboundEvent`. -/
structure InboundEvent where
  eventId : String
  roomId : String
  sender : String
  decrypted : Bool
  redacted : Bool
  body : String
  room : RoomSnapshot
  deriving DecidableEq, Repr

/-- `HandleResult`. -/
inductive HandleResult where
  | ignored
  | sent
  deriving DecidableEq, Repr

/-- `send_failure`. -/
def sendFailure (st : AppState) (roomId sessionId nonce reason : String) : Relay HandleResult := do
  let sentAt ← nowMs
  let message := MatrixMessage.result sessionId nonce sentAt false none (some reason)
  sendNotice roomId (← message.encode st.crates)
  return .sent

/-- `send_success_result`. -/
def sendSuccessResult (st : AppState) (roomId sessionId nonce sub : String) : Relay Unit := do
  let sentAt ← nowMs
  let message := MatrixMessage.result sessionId nonce sentAt true (some sub) none
  sendNotice roomId (← message.encode st.crates)

/-! ## Request -/

/-- `process_request`, once its session has been found open for a challenge. -/
def bindChallenge (st : AppState) (event : InboundEvent) (now : Int64) (session : SessionRow) :
    Relay (String × Int64) := do
  reserveRequestEvent event.eventId (← millisToUtc st (session.exp + replayGraceMs))
  let bytes ← fillBytes challengeBytes
  let challenge := Base64url.encode st.crates bytes.val
  let challengeHash := st.lookupHash challenge
  reserveChallengeHash challengeHash (← millisToUtc st (session.exp + replayGraceMs))
  let expiresAt := challengeExpiresAt now session.exp
  let roomCt ← st.encrypt (asBytes event.roomId)
  let senderCt ← st.encrypt (asBytes event.sender)
  let updated ← casUpdate session.id session.version {
    state := .challengeSent
    requestEventId := some event.eventId
    requestRoomCiphertext := some roomCt
    requestSenderCiphertext := some senderCt
    challengeHash := some challengeHash
    challengeExpiresAt := some expiresAt }
  if updated then return (challenge, expiresAt) else throw (.problem .sessionConflict)

/-- `process_request`. -/
def processRequest (st : AppState) (event : InboundEvent) (sessionId nonce : String) (sentAt : Int64)
    (domain : String) : Relay HandleResult := do
  let now ← nowMs
  inTx do
    match ← getMatching domain sessionId (st.lookupHash nonce) with
    | none => return .ignored
    | some session =>
      if session.exp < now ∨ !sentAtInQrWindow sentAt session.iat session.exp then return .ignored
      else if session.challengeHash.isSome then
        commit
        return .ignored
      else
        let (challenge, expiresAt) ← bindChallenge st event now session
        commit
        let outbound := MatrixMessage.challenge sessionId nonce now session.siteDisplayName domain
          session.requestedDisplayName challenge expiresAt
        sendNotice event.roomId (← outbound.encode st.crates)
        return .sent

/-! ## Consent -/

/-- The stored text `process_consent` compares with, if it can be read. -/
def AppState.storedText (st : AppState) (ciphertext : Option Bytes) : Option String :=
  ciphertext.bind fun c => (st.decryptText c).toOption

/-- `process_consent`, on an approved consent whose event id has been reserved. -/
def mintAssertion (st : AppState) (event : InboundEvent) (sessionId nonce : String) (now : Int64)
    (displayName : Option String) (session : SessionRow) : Relay HandleResult := do
  match displayName with
  | none => throw (.problem .invalidRequest)
  | some display =>
    let sub ← derivePairwiseSub st.crates st.subjectSecret session.domain event.sender
    let subjectCt ← st.encrypt (asBytes sub)
    let userCt ← st.encrypt (asBytes event.sender)
    let _ ← upsertGrant {
      domain := session.domain
      subjectHash := st.lookupHash sub
      subjectCiphertext := subjectCt
      matrixUserCiphertext := userCt
      sessionId
      nonceHash := st.lookupHash nonce
      subjectKeyVersion := st.subjectKeyVersion }
    let bytes ← fillBytes jtiBytes
    let jti := Base64url.encode st.crates bytes.val
    let exp := min session.exp (now + maxTtlMs)
    let assertion ← RelayAssertion.sign st.crates st.signingKey st.signingKid session.domain sub
      sessionId nonce jti now exp display st.subjectKeyVersion
    reserveAssertionJti jti (← millisToUtc st (session.exp + replayGraceMs))
    let assertionCt ← st.encrypt (assertion.toBytes st.crates)
    let displayCt ← st.encrypt (asBytes display)
    let _ ← casUpdate session.id session.version {
      state := .consentReceived
      consentEventId := some event.eventId
      displayNameCiphertext := some displayCt
      assertionJti := some jti
      assertionCiphertext := some assertionCt }
    enqueue {
      kind := .assertion
      domain := session.domain
      jti
      payloadCiphertext := assertionCt
      sessionId
      nonceHash := st.lookupHash nonce }
    commit
    return .sent

/-- `process_consent`, once its session has been found. -/
def consentOn (st : AppState) (event : InboundEvent) (sessionId nonce : String) (sentAt : Int64)
    (approved : Bool) (displayName : Option String) (challenge : String) (now : Int64)
    (session : SessionRow) : Relay HandleResult := do
  if session.exp < now ∨ !sentAtInQrWindow sentAt session.iat session.exp
      ∨ session.challengeExpiresAt.any (fun exp => exp < sentAt || exp < now) then
    rollback
    sendFailure st event.roomId sessionId nonce "request_expired"
  else if session.challengeHash ≠ some (st.lookupHash challenge) then return .ignored
  else if st.storedText session.requestSenderCiphertext ≠ some event.sender
      ∨ st.storedText session.requestRoomCiphertext ≠ some event.roomId then
    return .ignored
  else
    reserveConsentEvent event.eventId (← millisToUtc st (session.exp + replayGraceMs))
    if approved then mintAssertion st event sessionId nonce now displayName session
    else
      let _ ← casUpdate session.id session.version {
        state := .refused
        consentEventId := some event.eventId }
      commit
      sendFailure st event.roomId sessionId nonce "request_cancelled"

/-- `process_consent`. -/
def processConsent (st : AppState) (event : InboundEvent) (sessionId nonce : String) (sentAt : Int64)
    (approved : Bool) (displayName : Option String) (challenge keyId signature : String) :
    Relay HandleResult := do
  let now ← nowMs
  let signed ← consentSignedBytes st.crates approved challenge displayName nonce sessionId sentAt
  P256.verifyConsentSignature st.crates keyId signed signature
  inTx do
    match ← getBySessionAndNonce sessionId (st.lookupHash nonce) with
    | none => throw (.problem .sessionNotFound)
    | some session =>
      consentOn st event sessionId nonce sentAt approved displayName challenge now session

/-! ## Revocation -/

/-- `process_revocation`, once its session has been found. -/
def revocationOn (st : AppState) (event : InboundEvent) (sessionId nonce siteAccountId : String)
    (reason : Option String) (session : SessionRow) : Relay HandleResult := do
  match ← findActiveGrant session.domain (st.lookupHash siteAccountId) with
  | none => return .ignored
  | some grant =>
    let storedUser ← st.decryptText grant.matrixUserCiphertext
    if storedUser ≠ event.sender then return .ignored
    else if grant.revokedAt.isSome then
      commit
      return .ignored
    else
      markRevoked grant.id
      let bytes ← fillBytes jtiBytes
      let jti := Base64url.encode st.crates bytes.val
      let reservedAt ← nowMs
      reserveRevocationJti jti (← millisToUtc st (reservedAt + replayGraceMs))
      let iat ← nowMs
      let revocation ← RelayRevocation.sign st.crates st.signingKey st.signingKid session.domain
        siteAccountId jti iat (reason.getD "user_requested")
      let payloadCt ← st.encrypt (revocation.toBytes st.crates)
      enqueue {
        kind := .revocation
        domain := session.domain
        jti
        payloadCiphertext := payloadCt
        sessionId
        nonceHash := st.lookupHash nonce }
      let _ ← casUpdate session.id session.version { state := .revoked }
      commit
      return .sent

/-- `process_revocation`. -/
def processRevocation (st : AppState) (event : InboundEvent) (sessionId nonce siteAccountId : String)
    (reason : Option String) : Relay HandleResult :=
  inTx do
    match ← getBySessionAndNonce sessionId (st.lookupHash nonce) with
    | none => return .ignored
    | some session => revocationOn st event sessionId nonce siteAccountId reason session

/-! ## Dispatch -/

/-- The message of an event `handle_inbound` goes on with. -/
def InboundEvent.message? (st : AppState) (event : InboundEvent) : Option MatrixMessage :=
  if event.redacted || !event.decrypted then none
  else if event.sender = st.relayUserId then none
  else
    match checkRoom event.room with
    | .error _ => none
    | .ok () => (MatrixMessage.decode st.crates event.body).toOption

/-- An event that is handled comes from another user, in a room the policy accepts. -/
lemma InboundEvent.message?_some {st : AppState} {event : InboundEvent} {m : MatrixMessage}
    (h : event.message? st = some m) : event.sender ≠ st.relayUserId ∧
      checkRoom event.room = .ok () ∧ MatrixMessage.decode st.crates event.body = .ok m := by
  unfold InboundEvent.message? at h
  split at h
  · cases h
  · split at h
    · cases h
    · rename_i ne
      split at h
      · cases h
      · rename_i room
        refine ⟨ne, room, ?_⟩
        cases e : MatrixMessage.decode st.crates event.body with
        | ok m' =>
          rw [e] at h
          cases h
          rfl
        | error _ =>
          rw [e] at h
          cases h

/-- `handle_inbound`. -/
def handleInbound (st : AppState) (event : InboundEvent) : Relay HandleResult :=
  match event.message? st with
  | some (.request sessionId nonce sentAt domain) =>
    processRequest st event sessionId nonce sentAt domain
  | some (.consent sessionId nonce sentAt approved displayName challenge keyId signature) =>
    processConsent st event sessionId nonce sentAt approved displayName challenge keyId signature
  | some (.revocation sessionId nonce _ siteAccountId reason) =>
    processRevocation st event sessionId nonce siteAccountId reason
  | _ => return .ignored

end WebLoginRelay
