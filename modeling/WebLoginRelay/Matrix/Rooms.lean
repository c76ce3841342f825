import WebLoginRelay.Error
import WebLoginRelay.RoomPolicy

/-!
# Rooms of the Matrix SDK

`src/matrix/rooms.rs`: the snapshots the room policy is asked about. A room is what the SDK answers about
it.
-/

namespace WebLoginRelay

/-- `matrix_sdk::RoomState`. -/
inductive RoomState where
  | joined
  | left
  | invited
  | knocked
  | banned
  deriving DecidableEq, Repr

/-- `MembershipState`. -/
inductive MembershipState where
  | join
  | invite
  | leave
  | ban
  | knock
  deriving DecidableEq, Repr

/-- `matrix_sdk::RoomMember`. -/
structure RoomMember where
  userId : String
  membership : MembershipState
  deriving DecidableEq, Repr

/-- `matrix_sdk::Room`. -/
structure Room where
  state : RoomState
  /-- `encryption_state().is_encrypted()`. -/
  encrypted : Bool
  isDirect : Except Unit Bool
  requestEncryptionState : Except Unit Unit
  syncMembers : Except Unit Unit
  /-- `members(RoomMemberships::ACTIVE)`. -/
  members : Except Unit (List RoomMember)
  /-- `members_no_sync(RoomMemberships::JOIN)`. -/
  membersNoSync : Except Unit (List RoomMember)

/-- `.map_err(|_| RelayError::problem(ProblemCode::InternalError))?`. -/
def sdk {α} : Except Unit α → Except RelayError α
  | .ok a => .ok a
  | .error () => .error (.problem .internalError)

/-- The ids of the members who have joined, in the order of the SDK. -/
def joinedIds (members : List RoomMember) : List String :=
  (members.filter (·.membership == .join)).map (·.userId)

/-- `.unwrap_or(false)`. -/
def orFalse : Except Unit Bool → Bool
  | .ok b => b
  | .error () => false

/-- `snapshot`. -/
def snapshot (room : Room) (sender relayUserId : String) : Except RelayError RoomSnapshot := do
  let members ← sdk room.members
  return {
    encrypted := room.encrypted
    isDirect := orFalse room.isDirect
    members := joinedIds members
    sender
    relayUserId }

/-- `joined_room_is_safe`. -/
def joinedRoomIsSafe (room : Room) (relayUserId : String) : Except RelayError Bool := do
  if room.state ≠ .joined then return false
  else
    sdk room.requestEncryptionState
    sdk room.syncMembers
    let members ← sdk room.membersNoSync
    let ids := joinedIds members
    match ids.find? (· ≠ relayUserId) with
    | none => return false
    | some peer =>
      return (checkRoom {
        encrypted := room.encrypted
        isDirect := orFalse room.isDirect
        members := ids
        sender := peer
        relayUserId }).isOk

end WebLoginRelay
