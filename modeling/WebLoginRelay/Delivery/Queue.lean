import WebLoginRelay.Outbound.SiteClient
import WebLoginRelay.Services.Login

/-!
# Delivery

`src/delivery/queue.rs`: one pass of the loop that posts assertions and revocations to their sites.
-/

namespace WebLoginRelay
open Text Relay

/-- `after_assertion_accepted`. -/
def afterAssertionAccepted (st : AppState) (job : DeliveryJob) (payload : Bytes) : Relay Unit := do
  let assertion ← strictFromSlice st.crates RelayAssertion.fromValue payload
  inTx do
    match ← getMatching job.domain job.sessionId job.nonceHash with
    | none => return ()
    | some session =>
      match session.requestRoomCiphertext with
      | none => throw (.problem .internalError)
      | some room =>
        let roomId ← st.decryptText room
        let nonce ← st.decryptText session.nonceCiphertext
        let _ ← casUpdate session.id session.version { state := .assertionDelivered }
        commit
        sendSuccessResult st roomId job.sessionId nonce assertion.sub

/-- The path of a kind of job. -/
def JobKind.path : JobKind → String
  | .assertion => assertionPath
  | .revocation => revocationPath

/-- `deliver`. -/
def deliver (st : AppState) (job : DeliveryJob) : Relay Unit := do
  let payload ← st.decrypt job.payloadCiphertext
  let idempotency := if job.kind = .assertion then some job.jti else none
  let response ← postJson job.domain job.kind.path payload idempotency
  if response.status ≠ 202 ∧ response.status ≠ 200 then throw (.problem .relayUnavailable)
  else if job.kind = .assertion then afterAssertionAccepted st job payload
  else return ()

/-- The body of the loop of `tick`. -/
def deliverJob (st : AppState) (job : DeliveryJob) : Relay Unit := ExceptT.mk do
  let r ← (deliver st job).run
  match r with
  | .ok () => (markDelivered job.id).run
  | .error _ => if job.attempts ≥ 8 then (markFailed job.id).run else pure (.ok ())

/-- The loop of `tick`. -/
def deliverAll (st : AppState) : List DeliveryJob → Relay Unit
  | [] => return ()
  | job :: jobs => do
    deliverJob st job
    deliverAll st jobs

/-- `tick`. -/
def tick (st : AppState) : Relay Unit := do
  deliverAll st (← claimDue 10)

end WebLoginRelay
