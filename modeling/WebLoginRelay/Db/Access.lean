import WebLoginRelay.Relay

/-!
# Database access

The functions of `src/db`: a statement each, with the way its result and its errors are read.
`query_opt` fails when a query yields more than one row.
-/

namespace WebLoginRelay
open Text Relay

/-- `query_opt`, on the rows of the query. -/
def queryOpt {α} : List α → Except RelayError (Option α)
  | [] => .ok none
  | [a] => .ok (some a)
  | _ :: _ :: _ => fail .internalError

/-! ## `src/db/sessions.rs` -/

/-- `millis_to_utc`. -/
def millisToUtc (st : AppState) (ms : Int64) : Except RelayError DateTime :=
  if st.crates.timestampMillis ms then .ok (ms.toInt * 1000) else fail .invalidRequest

/-- `get_by_session`. -/
def getBySession (domain sessionId : String) : Relay (Option SessionRow) := do
  liftResult (queryOpt (← exec (.selectSessions (.session domain sessionId))))

/-- `get_by_session_and_nonce`. -/
def getBySessionAndNonce (sessionId : String) (nonceHash : Bytes) : Relay (Option SessionRow) := do
  liftResult (queryOpt (← exec (.selectSessions (.sessionAndNonce sessionId nonceHash))))

/-- `get_matching`. -/
def getMatching (domain sessionId : String) (nonceHash : Bytes) : Relay (Option SessionRow) := do
  liftResult (queryOpt (← exec (.selectSessions (.matching domain sessionId nonceHash))))

/-- `cas_update`. -/
def casUpdate (id expectedVersion : Nat) (set : SessionSet) : Relay Bool := do
  let updated : Nat ← execUnique .sessionConflict (.casUpdate id expectedVersion set)
  return updated == 1

/-- `InsertOutcome`. -/
inductive InsertOutcome where
  | created
  | identical
  deriving DecidableEq, Repr

/-- `insert_registered`. -/
def insertRegistered (st : AppState) (session : NewSession) : Relay InsertOutcome := do
  let _ ← millisToUtc st (session.exp + replayGraceMs)
  let result : Nat ← execUnique .sessionConflict (.insertSession session)
  if result = 1 then return .created
  else
    match ← getBySession session.domain session.sessionId with
    | some existing =>
      if existing.registrationHash = session.registrationHash
          ∧ existing.nonceHash = session.nonceHash
          ∧ existing.qrSignature = session.qrSignature
          ∧ existing.registrationSignature = session.registrationSignature then
        return .identical
      else throw (.problem .sessionConflict)
    | none => throw (.problem .sessionConflict)

/-! ## `src/db/replay.rs` -/

/-- An insert into a replay table, with the code of its conflict. -/
def reserve (conflict : ProblemCode) (key : ReplayKey) (expiresAt : DateTime) : Relay Unit := do
  let _ ← execUnique conflict (.insertReplay key expiresAt)

/-- `reserve_request_event`. -/
def reserveRequestEvent (eventId : String) : DateTime → Relay Unit :=
  reserve .challengeReplayed (.requestEventId eventId)

/-- `reserve_challenge_hash`. -/
def reserveChallengeHash (hash : Bytes) : DateTime → Relay Unit :=
  reserve .challengeReplayed (.challengeHash hash)

/-- `reserve_consent_event`. -/
def reserveConsentEvent (eventId : String) : DateTime → Relay Unit :=
  reserve .consentReplayed (.consentEventId eventId)

/-- `reserve_assertion_jti`. -/
def reserveAssertionJti (jti : String) : DateTime → Relay Unit :=
  reserve .assertionReplayed (.assertionJti jti)

/-- `reserve_revocation_jti`. -/
def reserveRevocationJti (jti : String) : DateTime → Relay Unit :=
  reserve .assertionReplayed (.revocationJti jti)

/-! ## `src/db/grants.rs` -/

/-- `upsert_grant`. -/
def upsertGrant (new : NewGrant) : Relay GrantRow := exec (.upsertGrant new)

/-- `find_active_grant`; it also yields grants that were revoked. -/
def findActiveGrant (domain : String) (subjectHash : Bytes) : Relay (Option GrantRow) := do
  liftResult (queryOpt (← exec (.selectGrants domain subjectHash)))

/-- `mark_revoked`. -/
def markRevoked (id : Nat) : Relay Unit := do
  let _ ← exec (.markRevoked id)

/-! ## `src/db/delivery.rs` -/

/-- `enqueue`. -/
def enqueue (new : NewJob) : Relay Unit := do
  let _ ← exec (.enqueue new)

/-- `claim_due`. -/
def claimDue (limit : Nat) : Relay (List DeliveryJob) := auto (.claimDue limit)

/-- `mark_delivered`. -/
def markDelivered (id : Nat) : Relay Unit := do
  let _ ← auto (.markDelivered id)

/-- `mark_failed`. -/
def markFailed (id : Nat) : Relay Unit := do
  let _ ← auto (.markFailed id)

end WebLoginRelay
