import WebLoginRelay.Crypto.Primitives
import WebLoginRelay.Matrix.Rooms

/-!
# Two-party rooms

The room policy accepts an encrypted room of the relay and the sender, whatever the order of its members,
and the check after a join agrees with the checks of the messages.
-/

namespace WebLoginRelay
open Text

/-- A list of two that has two different members is a permutation of them. -/
lemma perm_pair {α : Type} {l : List α} {a b : α} (ne : a ≠ b) (length : l.length = 2) (ha : a ∈ l)
    (hb : b ∈ l) : l.Perm [a, b] := by
  have sub : [a, b].Subperm l := by
    refine List.subperm_of_subset (by simp [ne]) ?_
    intro c hc
    obtain rfl | hc := List.mem_cons.mp hc
    · exact ha
    · exact List.mem_singleton.mp hc ▸ hb
  exact (sub.perm_of_length_le (by simp [length])).symm

namespace RoomSnapshot
variable {s t : RoomSnapshot}

/-- The relay, whose id is the fixed one when none is given. -/
def relay (s : RoomSnapshot) : String := if s.relayUserId.isEmpty then matrixUserId else s.relayUserId

/-- An encrypted room of the relay and the sender. -/
structure IsTwoParty (s : RoomSnapshot) : Prop where
  encrypted : s.encrypted = true
  members : s.members.Perm [s.relay, s.sender]
  sender : s.sender ≠ s.relay
  relay_guest : contains s.relay "guest" = false
  sender_guest : contains s.sender "guest" = false

/-- An id with the suffix of a guest contains the word. -/
lemma contains_of_endsWith {m : String} (h : endsWith m ":guest" = true) : contains m "guest" = true := by
  have suffix : asBytes ":guest" <:+ asBytes m := List.isSuffixOf_iff_suffix.mp h
  have word : asBytes "guest" <:+ asBytes ":guest" := ⟨asBytes ":", by decide⟩
  exact decide_eq_true (word.trans suffix).isInfix

/-- The policy accepts exactly the rooms of two parties. -/
lemma checkRoom_iff : checkRoom s = .ok () ↔ s.IsTwoParty := by
  have relay : s.relay = if s.relayUserId.isEmpty then matrixUserId else s.relayUserId := rfl
  unfold checkRoom
  rw [← relay]
  constructor
  · intro h
    split at h
    · nomatch h
    rename_i encrypted
    split at h
    · nomatch h
    rename_i length
    dsimp only at h
    split at h
    · nomatch h
    rename_i relay_mem
    split at h
    · nomatch h
    rename_i guests
    split at h
    · nomatch h
    rename_i peer
    simp only [Bool.not_eq_true', Bool.not_eq_false, List.any_eq_true, beq_iff_eq, exists_eq_right]
      at encrypted relay_mem
    simp only [List.any_eq_true, Bool.or_eq_true, not_exists, not_and, not_or, Bool.not_eq_true] at guests
    simp only [not_or, Bool.not_eq_true', Bool.not_eq_false, List.any_eq_true, beq_iff_eq, exists_eq_right]
      at peer
    exact ⟨encrypted, perm_pair (Ne.symm peer.1) (not_not.mp length) relay_mem peer.2, peer.1,
      (guests _ relay_mem).2, (guests _ peer.2).2⟩
  · rintro ⟨encrypted, members, sender, relay_guest, sender_guest⟩
    have length : s.members.length = 2 := members.length_eq
    have relay_mem : s.relay ∈ s.members := members.mem_iff.mpr (by simp)
    have sender_mem : s.sender ∈ s.members := members.mem_iff.mpr (by simp)
    have guests : ¬ (s.members.any fun m => endsWith m ":guest" || contains m "guest") = true := by
      simp only [List.any_eq_true, Bool.or_eq_true, not_exists, not_and]
      intro m hm guest
      have word : contains m "guest" = true := guest.elim contains_of_endsWith id
      obtain rfl | hm := List.mem_cons.mp (members.mem_iff.mp hm)
      · exact absurd word (by simp [relay_guest])
      · obtain rfl := List.mem_singleton.mp hm
        exact absurd word (by simp [sender_guest])
    rw [if_neg (by simp [encrypted]), if_neg (by simp [length]), if_neg (by simpa using relay_mem),
      if_neg guests, if_neg (by simpa using ⟨sender, sender_mem⟩)]

/-- The verdict depends on the members as a set with multiplicities, and not on the hint. -/
lemma checkRoom_congr (encrypted : s.encrypted = t.encrypted) (members : s.members.Perm t.members)
    (sender : s.sender = t.sender) (relay : s.relayUserId = t.relayUserId) : checkRoom s = checkRoom t := by
  have any (p : String → Bool) : s.members.any p = t.members.any p := by
    rw [Bool.eq_iff_iff, List.any_eq_true, List.any_eq_true]
    simp only [members.mem_iff]
  unfold checkRoom
  simp only [encrypted, members.length_eq, sender, relay, any]

end RoomSnapshot

/-- What the check after a join decides. -/
lemma joinedRoomIsSafe_eq {room : Room} {members : List RoomMember} (relayUserId : String)
    (joined : room.state = .joined) (requested : room.requestEncryptionState = .ok ())
    (synced : room.syncMembers = .ok ()) (listed : room.membersNoSync = .ok members) :
    joinedRoomIsSafe room relayUserId = .ok (match (joinedIds members).find? (· ≠ relayUserId) with
      | none => false
      | some peer => (checkRoom ⟨room.encrypted, orFalse room.isDirect, joinedIds members, peer,
          relayUserId⟩).isOk) := by
  unfold joinedRoomIsSafe
  rw [if_neg (not_not.mpr joined), requested, synced, listed]
  simp only [sdk, ok_bind]
  cases (joinedIds members).find? (· ≠ relayUserId) with
  | none => rfl
  | some peer => rfl

/-- The policy accepts exactly the encrypted rooms of the relay and the sender, in any order; and a room is
safe after a join exactly if some member other than the relay has joined it, and the message of every such
member passes the policy. -/
theorem rooms_are_two_party {room later : Room} {members active : List RoomMember} {relayUserId : String}
    (nonempty : relayUserId ≠ "") (joined : room.state = .joined)
    (requested : room.requestEncryptionState = .ok ()) (synced : room.syncMembers = .ok ())
    (listed : room.membersNoSync = .ok members) (encrypted : later.encrypted = room.encrypted)
    (relisted : later.members = .ok active) (same : (joinedIds active).Perm (joinedIds members)) :
    (∀ s : RoomSnapshot, checkRoom s = .ok () ↔ s.IsTwoParty) ∧
    (∀ s t : RoomSnapshot, s.encrypted = t.encrypted → s.members.Perm t.members → s.sender = t.sender →
      s.relayUserId = t.relayUserId → checkRoom s = checkRoom t) ∧
    (joinedRoomIsSafe room relayUserId = .ok true ↔
      (∃ m ∈ joinedIds members, m ≠ relayUserId) ∧
        ∀ m ∈ joinedIds members, m ≠ relayUserId →
          ∃ s, snapshot later m relayUserId = .ok s ∧ checkRoom s = .ok ()) := by
  refine ⟨fun s => RoomSnapshot.checkRoom_iff, fun s t => RoomSnapshot.checkRoom_congr, ?_⟩
  -- the message of a member is checked on the snapshot the join was checked on, but for the sender
  have message (m : String) : (∃ s, snapshot later m relayUserId = .ok s ∧ checkRoom s = .ok ()) ↔
      checkRoom ⟨room.encrypted, orFalse room.isDirect, joinedIds members, m, relayUserId⟩ = .ok () := by
    have taken : snapshot later m relayUserId = .ok ⟨later.encrypted, orFalse later.isDirect,
        joinedIds active, m, relayUserId⟩ := by
      unfold snapshot
      rw [relisted]
      rfl
    have verdict : checkRoom ⟨later.encrypted, orFalse later.isDirect, joinedIds active, m, relayUserId⟩ =
        checkRoom ⟨room.encrypted, orFalse room.isDirect, joinedIds members, m, relayUserId⟩ :=
      RoomSnapshot.checkRoom_congr encrypted same rfl rfl
    rw [← verdict]
    constructor
    · rintro ⟨s, e, ok⟩
      cases taken.symm.trans e
      exact ok
    · intro ok
      exact ⟨_, taken, ok⟩
  have relay (m : String) : RoomSnapshot.relay ⟨room.encrypted, orFalse room.isDirect, joinedIds members, m,
      relayUserId⟩ = relayUserId := if_neg (by simpa using nonempty)
  rw [joinedRoomIsSafe_eq relayUserId joined requested synced listed]
  cases found : (joinedIds members).find? (· ≠ relayUserId) with
  | none =>
    have all := List.find?_eq_none.mp found
    constructor
    · intro h
      nomatch h
    · rintro ⟨⟨m, hm, ne⟩, _⟩
      exact absurd (decide_eq_true ne) (all m hm)
  | some peer =>
    have peer_mem := List.mem_of_find?_eq_some found
    have peer_ne : peer ≠ relayUserId := by simpa using List.find?_some found
    constructor
    · intro safe
      have ok : checkRoom ⟨room.encrypted, orFalse room.isDirect, joinedIds members, peer, relayUserId⟩ =
          .ok () := by
        cases e : checkRoom ⟨room.encrypted, orFalse room.isDirect, joinedIds members, peer, relayUserId⟩ with
        | ok => rfl
        | error _ =>
          dsimp only at safe
          rw [e] at safe
          nomatch safe
      refine ⟨⟨peer, peer_mem, peer_ne⟩, ?_⟩
      intro m hm ne
      -- an accepted room has no third member
      have party := (RoomSnapshot.checkRoom_iff.mp ok).members.mem_iff.mp hm
      rw [relay] at party
      obtain rfl | party := List.mem_cons.mp party
      · exact absurd rfl ne
      · obtain rfl := List.mem_singleton.mp party
        exact (message m).mpr ok
    · rintro ⟨_, all⟩
      have ok := (message peer).mp (all peer peer_mem peer_ne)
      dsimp only
      rw [ok]
      rfl

/-- A room of Alice and the relay. -/
def Sample.aliceRoom : Room where
  state := .joined
  encrypted := true
  isDirect := .error ()
  requestEncryptionState := .ok ()
  syncMembers := .ok ()
  members := .ok [⟨"@alice:pseud0.org", .join⟩, ⟨matrixUserId, .join⟩, ⟨"@mallory:pseud0.org", .invite⟩]
  membersNoSync := .ok [⟨matrixUserId, .join⟩, ⟨"@alice:pseud0.org", .join⟩]

/-- The relay stays in it. -/
theorem rooms_are_two_party_alice : joinedRoomIsSafe Sample.aliceRoom matrixUserId = .ok true := by
  have policy := @rooms_are_two_party Sample.aliceRoom Sample.aliceRoom _ _ matrixUserId (by decide) rfl rfl
    rfl rfl rfl rfl (by decide)
  refine policy.2.2.mpr ⟨⟨"@alice:pseud0.org", by decide, by decide⟩, ?_⟩
  intro m hm ne
  have alice : m = "@alice:pseud0.org" := by
    have listed : m ∈ [matrixUserId, "@alice:pseud0.org"] := hm
    simpa [ne] using listed
  subst alice
  exact ⟨_, rfl, by decide⟩

end WebLoginRelay
