import WebLoginRelay.Constants

/-!
# Room policy

`src/room_policy.rs`: what an inbound message's room has to look like, and a room the relay is invited to.
-/

namespace WebLoginRelay
open Text

/-- `RoomSnapshot`. -/
structure RoomSnapshot where
  encrypted : Bool
  isDirect : Bool
  members : List String
  sender : String
  relayUserId : String
  deriving DecidableEq, Repr

/-- `RoomPolicyViolation`. -/
inductive RoomPolicyViolation where
  | unencrypted
  | unexpectedMember
  | unexpectedSender
  | guest
  deriving DecidableEq, Repr

/-- `check_room`. -/
def checkRoom (snapshot : RoomSnapshot) : Except RoomPolicyViolation Unit :=
  if !snapshot.encrypted then .error .unencrypted
  else if snapshot.members.length ≠ 2 then .error .unexpectedMember
  else
    let relay := if snapshot.relayUserId.isEmpty then matrixUserId else snapshot.relayUserId
    if !snapshot.members.any (· == relay) then .error .unexpectedMember
    else if snapshot.members.any fun m => endsWith m ":guest" || contains m "guest" then .error .guest
    else if snapshot.sender = relay ∨ !snapshot.members.any (· == snapshot.sender) then
      .error .unexpectedSender
    else .ok ()

/-- `InviteSnapshot`. -/
structure InviteSnapshot where
  encrypted : Bool
  encryptionUnknown : Bool
  isDirect : Bool
  joinedMemberCount : UInt64
  invitedMemberCount : UInt64
  members : List String
  relayUserId : String
  deriving DecidableEq, Repr

/-- `check_invite`. -/
def checkInvite (snapshot : InviteSnapshot) : Except RoomPolicyViolation Unit :=
  if !snapshot.encrypted && !snapshot.encryptionUnknown then .error .unencrypted
  else
    let summaryUnknown := snapshot.joinedMemberCount == 0 && snapshot.invitedMemberCount == 0
    if !summaryUnknown && (snapshot.joinedMemberCount != 1 || snapshot.invitedMemberCount != 1) then
      .error .unexpectedMember
    else if !snapshot.members.any (· == snapshot.relayUserId) then .error .unexpectedMember
    else
      let peers := snapshot.members.filter (· != snapshot.relayUserId)
      if 1 < peers.length then .error .unexpectedMember
      else if summaryUnknown && peers.length != 1 then .error .unexpectedMember
      else if peers.head?.any fun peer => endsWith peer ":guest" || contains peer "guest" then .error .guest
      else .ok ()

end WebLoginRelay
