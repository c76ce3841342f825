import WebLoginRelay.Matrix.Rooms
import WebLoginRelay.Protocol.Validation
import WebLoginRelay.Txn.Shared

/-!
# The Matrix client and readiness

`src/matrix/client.rs`: what the callback of the sync loop does with the rooms the relay is invited to, and the
handler `ready` of `src/http/routes.rs`, which reads what the callback has stored.
-/

namespace WebLoginRelay
open Txn

/-- `MATRIX_SYNC_STALE_MS`. -/
def matrixSyncStaleMs : Int64 := 120000

/-- A `matrix_sdk::Room` of `invited_rooms`. -/
structure InvitedRoom extends Room where
  roomId : String
  /-- `encryption_state().is_unknown()`. -/
  encryptionUnknown : Bool
  joinedMembersCount : UInt64
  invitedMembersCount : UInt64

/-- `invite_is_safe`. -/
def inviteIsSafe (room : InvitedRoom) (relayUserId : String) : Except RelayError Bool := do
  if room.state ≠ .invited then return false
  else
    let members ← sdk room.members
    return (checkInvite {
      encrypted := room.encrypted
      encryptionUnknown := room.encryptionUnknown
      isDirect := orFalse room.isDirect
      joinedMemberCount := room.joinedMembersCount
      invitedMemberCount := room.invitedMembersCount
      members := members.map (·.userId)
      relayUserId }).isOk

/-- One operation on the Matrix client, the clock, the database or the two atomics of `AppState`. -/
inductive SyncOp where
  | invitedRooms
  | join (roomId : String)
  | leave (roomId : String)
  | getRoom (roomId : String)
  | now
  /-- `db::ping`. -/
  | ping
  | loadSyncReady
  | storeSyncReady (ready : Bool)
  | loadLastMatrixSyncMs
  | storeLastMatrixSyncMs (ms : Int64)
  deriving DecidableEq, Repr

/-- The response to an operation. -/
@[reducible] def SyncOp.Resp : SyncOp → Type
  | .invitedRooms => List InvitedRoom
  | .join _ => Except Unit Unit
  | .leave _ => Except Unit Unit
  | .getRoom _ => Option Room
  | .now => Int64
  | .ping => Except Unit Unit
  | .loadSyncReady => Bool
  | .storeSyncReady _ => Unit
  | .loadLastMatrixSyncMs => Int64
  | .storeLastMatrixSyncMs _ => Unit

/-- Computations of the Matrix client. -/
abbrev Sync (α : Type) := ExceptT RelayError (Prog SyncOp SyncOp.Resp) α

namespace Sync
variable {α : Type}

abbrev op (o : SyncOp) : Prog SyncOp SyncOp.Resp o.Resp := Prog.ask o

def ask (o : SyncOp) : Sync o.Resp := ExceptT.lift (op o)

def result (r : Except RelayError α) : Sync α := ExceptT.mk (pure r)

/-- `.map_err(|error| anyhow::anyhow!(error.to_string()))?`. -/
def anyhow : Except Unit Unit → Except RelayError Unit
  | .ok () => .ok ()
  | .error () => .error .internal

/-- One room of the loop of `auto_join_invites`. -/
def autoJoinInvite (relayUserId : String) (room : InvitedRoom) : Sync Unit := do
  if !(← result (inviteIsSafe room relayUserId)) then result (anyhow (← ask (.leave room.roomId)))
  else
    result (anyhow (← ask (.join room.roomId)))
    match ← ask (.getRoom room.roomId) with
    | none => throw (.problem .internalError)
    | some joined =>
      if ← result (joinedRoomIsSafe joined relayUserId) then return ()
      else result (anyhow (← ask (.leave room.roomId)))

/-- `auto_join_invites`. -/
def autoJoinInvites (relayUserId : String) : Sync Unit := do
  (← ask .invitedRooms).forM (autoJoinInvite relayUserId)

end Sync

/-- The callback of `sync_with_result_callback`. -/
def syncCallback (relayUserId : String) (result : Except Unit Unit) : Prog SyncOp SyncOp.Resp Unit := do
  match result with
  | .ok () =>
    match ← (Sync.autoJoinInvites relayUserId).run with
    | .error _ => Sync.op (.storeSyncReady false)
    | .ok () =>
      Sync.op (.storeLastMatrixSyncMs (← Sync.op .now))
      Sync.op (.storeSyncReady true)
  | .error () => Sync.op (.storeSyncReady false)

/-- `matrix_sync_is_fresh`. -/
def matrixSyncIsFresh (nowMs lastSyncMs : Int64) (syncRunning : Bool) : Bool :=
  syncRunning && 0 < lastSyncMs && saturatingSub nowMs lastSyncMs ≤ matrixSyncStaleMs

/-- `ready`. -/
def ready : Prog SyncOp SyncOp.Resp (Except ProblemCode Unit) := do
  match ← Sync.op .ping with
  | .error () => return .error .relayUnavailable
  | .ok () =>
    let syncRunning ← Sync.op .loadSyncReady
    let lastSync ← Sync.op .loadLastMatrixSyncMs
    let nowMs ← Sync.op .now
    if !matrixSyncIsFresh nowMs lastSync syncRunning then return .error .relayUnavailable
    else return .ok ()

/-- What runs over the atomics. -/
inductive SyncCall where
  | callback (result : Except Unit Unit)
  /-- `sync_forever` after `sync_with_result_callback` has failed. -/
  | ended
  | ready

/-- The program of a call, and what it returns. -/
def SyncCall.prog (relayUserId : String) : SyncCall → Prog SyncOp SyncOp.Resp (Option (Except ProblemCode Unit))
  | .callback result => do
    syncCallback relayUserId result
    return none
  | .ended => do
    Sync.op (.storeSyncReady false)
    return none
  | .ready => some <$> WebLoginRelay.ready

/-- The values that the atomics have had. -/
structure Atomics where
  syncReady : List Bool
  lastMatrixSyncMs : List Int64

/-- What an operation may answer. A relaxed load yields some value that the atomic has had. -/
def Atomics.Answers (m : Atomics) : Event SyncOp SyncOp.Resp → Atomics → Prop
  | ⟨.loadSyncReady, b⟩, m' => b ∈ m.syncReady ∧ m' = m
  | ⟨.storeSyncReady b, _⟩, m' => m' = { m with syncReady := m.syncReady ++ [b] }
  | ⟨.loadLastMatrixSyncMs, t⟩, m' => t ∈ m.lastMatrixSyncMs ∧ m' = m
  | ⟨.storeLastMatrixSyncMs t, _⟩, m' => m' = { m with lastMatrixSyncMs := m.lastMatrixSyncMs ++ [t] }
  | _, m' => m' = m

/-- The runs of any number of callbacks and requests for `/health/ready`, when Matrix is enabled. -/
abbrev SyncRun (relayUserId : String) := Shared.Run (α := Option (Except ProblemCode Unit)) ⟨[false], [0]⟩
  (fun p => ∃ c : SyncCall, p = c.prog relayUserId) Atomics.Answers

end WebLoginRelay
