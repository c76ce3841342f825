import WebLoginRelay.Matrix.Client
import WebLoginRelay.Properties.Expiry
import WebLoginRelay.Properties.RoomMembership

/-!
# Invitations and readiness

The relay joins a room only on an invitation that the policy accepts, and then stays in it only if the room turns
out to be an encrypted one of two parties. The relay is ready only within two minutes of a pass that has dealt
with every invitation, whatever else the threads do at the same time.
-/

namespace WebLoginRelay
open Text Txn Shared

/-- At most one other member is known of the room, and one for certain if there is no summary of it. -/
structure InviteSnapshot.IsAcceptable (s : InviteSnapshot) : Prop where
  encryption : s.encrypted = true ∨ s.encryptionUnknown = true
  summary : (s.joinedMemberCount = 1 ∧ s.invitedMemberCount = 1) ∨
    (s.joinedMemberCount = 0 ∧ s.invitedMemberCount = 0 ∧ s.members.filter (· != s.relayUserId) ≠ [])
  relay : s.relayUserId ∈ s.members
  others : (s.members.filter (· != s.relayUserId)).length ≤ 1
  guest : ∀ m ∈ s.members, m ≠ s.relayUserId → contains m "guest" = false

/-- The policy accepts exactly these invitations. -/
lemma checkInvite_iff {s : InviteSnapshot} : checkInvite s = .ok () ↔ s.IsAcceptable := by
  have peer {m : String} : m ∈ s.members.filter (· != s.relayUserId) ↔ m ∈ s.members ∧ m ≠ s.relayUserId := by
    simp only [List.mem_filter, bne_iff_ne]
  unfold checkInvite
  constructor
  · intro h
    split at h
    · nomatch h
    rename_i encryption
    dsimp only at h
    split at h
    · nomatch h
    rename_i summary
    split at h
    · nomatch h
    rename_i relay
    split at h
    · nomatch h
    rename_i others
    split at h
    · nomatch h
    rename_i known
    split at h
    · nomatch h
    rename_i guest
    simp only [Bool.and_eq_true, Bool.not_eq_true', not_and, Bool.not_eq_false, Bool.or_eq_true, bne_iff_ne,
      ne_eq, not_or, not_not, beq_iff_eq, List.any_eq_true, exists_eq_right, Bool.and_eq_false_iff,
      beq_eq_false_iff_ne] at encryption summary relay known
    refine ⟨?_, ?_, relay, not_lt.mp others, ?_⟩
    · cases e : s.encrypted with
      | true => exact .inl rfl
      | false => exact .inr (encryption e)
    · by_cases unknown : s.joinedMemberCount = 0 ∧ s.invitedMemberCount = 0
      · refine .inr ⟨unknown.1, unknown.2, ?_⟩
        intro none
        have one := known unknown
        rw [none] at one
        nomatch one
      · exact .inl (summary (not_and_or.mp unknown))
    · intro m hm ne
      have member := peer.mpr ⟨hm, ne⟩
      cases peers : s.members.filter (· != s.relayUserId) with
      | nil =>
        rw [peers] at member
        nomatch member
      | cons p ps =>
        rw [peers] at member others guest
        have only : ps = [] := List.eq_nil_of_length_eq_zero (by simp only [List.length_cons] at others; omega)
        rw [only] at member
        obtain rfl := List.mem_singleton.mp member
        simp only [List.head?_cons, Option.any_some, Bool.or_eq_true, not_or, Bool.not_eq_true] at guest
        exact guest.2
  · rintro ⟨encryption, summary, relay, others, guest⟩
    have first : (s.members.filter (· != s.relayUserId)).head?.any
        (fun peer => endsWith peer ":guest" || contains peer "guest") = false := by
      rw [Option.any_eq_false]
      intro p hp
      have word := guest p (peer.mp (List.mem_of_head? hp)).1 (peer.mp (List.mem_of_head? hp)).2
      have suffix := mt RoomSnapshot.contains_of_endsWith (by simp [word] : ¬ contains p "guest" = true)
      simp [word, suffix]
    rw [if_neg (by simpa [Classical.or_iff_not_imp_left] using encryption)]
    dsimp only
    obtain ⟨joined, invited⟩ | ⟨joined, invited, some⟩ := summary
    · rw [if_neg (by simp [joined, invited]), if_neg (by simpa using relay), if_neg (by omega),
        if_neg (by simp [joined]), if_neg (by rw [first]; exact Bool.false_ne_true)]
    · have one : (s.members.filter (· != s.relayUserId)).length = 1 :=
        le_antisymm others (List.length_pos_iff.mpr some)
      rw [if_neg (by simp [joined, invited]), if_neg (by simpa using relay), if_neg (by omega),
        if_neg (by simp [one]), if_neg (by rw [first]; exact Bool.false_ne_true)]

namespace Sync

/-- What a thread has done. -/
abbrev Past := List (Event SyncOp SyncOp.Resp)

/-- The snapshot of `invite_is_safe`. -/
def snapshotOf (room : InvitedRoom) (members : List RoomMember) (relayUserId : String) : InviteSnapshot :=
  ⟨room.encrypted, room.encryptionUnknown, orFalse room.isDirect, room.joinedMembersCount,
    room.invitedMembersCount, members.map (·.userId), relayUserId⟩

/-- The relay is invited to the room, and the policy accepts the invitation. -/
def Invited (relayUserId : String) (room : InvitedRoom) : Prop :=
  room.state = .invited ∧ ∃ members, room.members = .ok members ∧
    (snapshotOf room members relayUserId).IsAcceptable

/-- The relay has joined the encrypted room, and the only other member of it is no guest. -/
def TwoParty (relayUserId : String) (room : Room) : Prop :=
  room.state = .joined ∧ ∃ members peer, room.membersNoSync = .ok members ∧
    RoomSnapshot.IsTwoParty ⟨room.encrypted, orFalse room.isDirect, joinedIds members, peer, relayUserId⟩

variable {relayUserId : String}

/-- An invitation that is found safe is one the policy accepts. -/
lemma invited_of_safe {room : InvitedRoom} (h : inviteIsSafe room relayUserId = .ok true) :
    Invited relayUserId room := by
  unfold inviteIsSafe at h
  split at h
  · nomatch h
  · rename_i invited
    cases members : room.members with
    | error _ =>
      rw [members] at h
      nomatch h
    | ok list =>
      rw [members] at h
      refine ⟨not_not.mp invited, list, members, checkInvite_iff.mp ?_⟩
      change Except.ok (checkInvite (snapshotOf room list relayUserId)).isOk = .ok true at h
      cases e : checkInvite (snapshotOf room list relayUserId) with
      | ok _ => rfl
      | error _ =>
        rw [e] at h
        nomatch h

/-- A room that is found safe is an encrypted two-party room. -/
lemma twoParty_of_safe {room : Room} (h : joinedRoomIsSafe room relayUserId = .ok true) :
    TwoParty relayUserId room := by
  by_cases joined : room.state = .joined
  · cases requested : room.requestEncryptionState with
    | error _ =>
      rw [joinedRoomIsSafe, if_neg (not_not.mpr joined), requested] at h
      nomatch h
    | ok _ =>
      cases synced : room.syncMembers with
      | error _ =>
        rw [joinedRoomIsSafe, if_neg (not_not.mpr joined), requested, synced] at h
        nomatch h
      | ok _ =>
        cases listed : room.membersNoSync with
        | error _ =>
          rw [joinedRoomIsSafe, if_neg (not_not.mpr joined), requested, synced, listed] at h
          nomatch h
        | ok members =>
          rw [joinedRoomIsSafe_eq relayUserId joined requested synced listed] at h
          cases found : (joinedIds members).find? (· ≠ relayUserId) with
          | none =>
            rw [found] at h
            nomatch h
          | some peer =>
            rw [found] at h
            refine ⟨joined, members, peer, listed, RoomSnapshot.checkRoom_iff.mp ?_⟩
            dsimp only at h
            cases e : checkRoom ⟨room.encrypted, orFalse room.isDirect, joinedIds members, peer,
              relayUserId⟩ with
            | ok _ => rfl
            | error _ =>
              rw [e] at h
              nomatch h
  · rw [joinedRoomIsSafe, if_pos joined] at h
    nomatch h

/-- The relay has dealt with the invitation. -/
inductive Settles (relayUserId : String) (room : InvitedRoom) : Past → Prop where
  | rejected : Settles relayUserId room [⟨.leave room.roomId, .ok ()⟩]
  | stayed {joined} : Invited relayUserId room → TwoParty relayUserId joined →
    Settles relayUserId room [⟨.join room.roomId, .ok ()⟩, ⟨.getRoom room.roomId, some joined⟩]
  | left {joined} : Invited relayUserId room → Settles relayUserId room
    [⟨.join room.roomId, .ok ()⟩, ⟨.getRoom room.roomId, some joined⟩, ⟨.leave room.roomId, .ok ()⟩]

/-- It has failed to. -/
inductive Aborts (relayUserId : String) (room : InvitedRoom) : Past → Prop where
  | unread : Aborts relayUserId room []
  | stuck : Aborts relayUserId room [⟨.leave room.roomId, .error ()⟩]
  | joined {r es} : Invited relayUserId room → (∀ e ∈ es, ∀ id, e.op ≠ .join id) →
    Aborts relayUserId room (⟨.join room.roomId, r⟩ :: es)

/-- It has dealt with all of them in order. -/
inductive SettlesAll (relayUserId : String) : List InvitedRoom → Past → Prop where
  | nil : SettlesAll relayUserId [] []
  | cons {room rooms es es'} : Settles relayUserId room es → SettlesAll relayUserId rooms es' →
    SettlesAll relayUserId (room :: rooms) (es ++ es')

/-- What a callback has done when it returns. -/
inductive Pass (relayUserId : String) : Past → Prop where
  | failed : Pass relayUserId [⟨.storeSyncReady false, ()⟩]
  | aborted {all rooms room es es'} : SettlesAll relayUserId rooms es → Aborts relayUserId room es' →
    Pass relayUserId (⟨.invitedRooms, all⟩ :: es ++ (es' ++ [⟨.storeSyncReady false, ()⟩]))
  | succeeded {rooms es s} : SettlesAll relayUserId rooms es → Pass relayUserId (⟨.invitedRooms, rooms⟩ :: es ++
    [⟨.now, s⟩, ⟨.storeLastMatrixSyncMs s, ()⟩, ⟨.storeSyncReady true, ()⟩])

/-- What a callback may do next. -/
def Permitted (relayUserId : String) (past : Past) : Event SyncOp SyncOp.Resp → Prop
  | ⟨.join id, _⟩ => ∃ rooms, past.head? = some ⟨.invitedRooms, rooms⟩ ∧
    ∃ room ∈ rooms, room.roomId = id ∧ Invited relayUserId room
  | ⟨.storeLastMatrixSyncMs s, _⟩ => ∃ rooms es, SettlesAll relayUserId rooms es ∧
    past = ⟨.invitedRooms, rooms⟩ :: es ++ [⟨.now, s⟩]
  | ⟨.storeSyncReady true, _⟩ => ∃ rooms es s, SettlesAll relayUserId rooms es ∧
    past = ⟨.invitedRooms, rooms⟩ :: es ++ [⟨.now, s⟩, ⟨.storeLastMatrixSyncMs s, ()⟩]
  | _ => True

/-- The program asks, and goes on with the answer. -/
lemma alone_ask_bind {α : Type} {A : Past → Event SyncOp SyncOp.Resp → Prop} {o : SyncOp} {f : o.Resp → Sync α}
    {Q : Except RelayError α → Past → Prop} {past : Past}
    (h : ∀ r, A past ⟨o, r⟩ ∧ Alone A (f r).run Q (past ++ [⟨o, r⟩])) : Alone A (ask o >>= f).run Q past := by
  rintro r _ rfl
  exact h r

/-- The program asks last, and fails if the answer is an error. -/
lemma alone_anyhow {A : Past → Event SyncOp SyncOp.Resp → Prop} {o : SyncOp} {read : o.Resp → Except Unit Unit}
    {Q : Except RelayError Unit → Past → Prop} {past : Past}
    (h : ∀ r, A past ⟨o, r⟩ ∧ Q (anyhow (read r)) (past ++ [⟨o, r⟩])) :
    Alone A (ask o >>= fun r => result (anyhow (read r))).run Q past := by
  rintro r _ rfl
  exact h r

/-- What is done for one invitation. -/
lemma alone_autoJoinInvite {room : InvitedRoom} {rooms : List InvitedRoom} {past : Past}
    (first : past.head? = some ⟨.invitedRooms, rooms⟩) (mem : room ∈ rooms) :
    Alone (Permitted relayUserId) (autoJoinInvite relayUserId room).run (fun r past' => match r with
      | .ok () => ∃ es, past' = past ++ es ∧ Settles relayUserId room es
      | .error _ => ∃ es, past' = past ++ es ∧ Aborts relayUserId room es) past := by
  unfold autoJoinInvite
  cases safe : inviteIsSafe room relayUserId with
  | error e => exact ⟨[], (List.append_nil _).symm, .unread⟩
  | ok b =>
    cases b with
    | false =>
      apply alone_anyhow
      rintro (_ | _)
      · exact ⟨trivial, _, rfl, .stuck⟩
      · exact ⟨trivial, _, rfl, .rejected⟩
    | true =>
      have invited := invited_of_safe safe
      apply alone_ask_bind
      intro r
      refine ⟨⟨rooms, first, room, mem, rfl, invited⟩, ?_⟩
      cases r with
      | error _ => exact ⟨_, rfl, .joined invited nofun⟩
      | ok _ =>
        apply alone_ask_bind
        intro r
        refine ⟨trivial, ?_⟩
        cases r with
        | none => exact ⟨_, List.append_assoc _ _ _, .joined invited (by simp)⟩
        | some joined =>
          dsimp only
          cases party : joinedRoomIsSafe joined relayUserId with
          | error e => exact ⟨_, List.append_assoc _ _ _, .joined invited (by simp)⟩
          | ok b =>
            cases b with
            | true => exact ⟨_, List.append_assoc _ _ _, .stayed invited (twoParty_of_safe party)⟩
            | false =>
              have assoc (e : Event SyncOp SyncOp.Resp) :
                  past ++ [⟨.join room.roomId, .ok ()⟩] ++ [⟨.getRoom room.roomId, some joined⟩] ++ [e] =
                    past ++ [⟨.join room.roomId, .ok ()⟩, ⟨.getRoom room.roomId, some joined⟩, e] := by
                simp only [List.append_assoc, List.cons_append, List.nil_append]
              apply alone_anyhow
              rintro (_ | _)
              · exact ⟨trivial, _, assoc _, .joined invited (by simp)⟩
              · exact ⟨trivial, _, assoc _, .left invited⟩

/-- What is done for all of them. -/
lemma alone_forM {all rooms : List InvitedRoom} {past : Past} (first : past.head? = some ⟨.invitedRooms, all⟩)
    (mem : rooms ⊆ all) :
    Alone (Permitted relayUserId) (rooms.forM (autoJoinInvite relayUserId)).run (fun r past' => match r with
      | .ok () => ∃ es, past' = past ++ es ∧ SettlesAll relayUserId rooms es
      | .error _ => ∃ done room es es', past' = past ++ (es ++ es') ∧ SettlesAll relayUserId done es ∧
          Aborts relayUserId room es') past := by
  induction rooms generalizing past with
  | nil => exact ⟨[], (List.append_nil _).symm, .nil⟩
  | cons room rooms ih =>
    obtain ⟨here, rest⟩ := List.cons_subset.mp mem
    change Alone _ (autoJoinInvite relayUserId room >>= fun _ => rooms.forM (autoJoinInvite relayUserId)).run _ past
    apply alone_run_bind
    apply alone_mono _ (alone_autoJoinInvite first here)
    rintro (e | _) past' outcome
    · obtain ⟨es, rfl, aborts⟩ := outcome
      exact ⟨[], room, [], es, rfl, .nil, aborts⟩
    · obtain ⟨es, rfl, settles⟩ := outcome
      have later : (past ++ es).head? = some ⟨.invitedRooms, all⟩ := by
        rw [List.head?_append, first, Option.some_or]
      apply alone_mono _ (ih later rest)
      rintro (e | _) past' outcome
      · obtain ⟨done, room', es', es'', rfl, settled, aborts⟩ := outcome
        exact ⟨_, room', _, es'', by simp only [List.append_assoc], .cons settles settled, aborts⟩
      · obtain ⟨es', rfl, settled⟩ := outcome
        exact ⟨_, List.append_assoc _ _ _, .cons settles settled⟩

/-- What a call has done when it returns. -/
def Returns (relayUserId : String) : Option (Except ProblemCode Unit) → Past → Prop
  | none, past => Pass relayUserId past
  | some (.ok ()), past => ∃ p s n, matrixSyncIsFresh n s true = true ∧
    past = [⟨.ping, p⟩, ⟨.loadSyncReady, true⟩, ⟨.loadLastMatrixSyncMs, s⟩, ⟨.now, n⟩]
  | some (.error _), _ => True

/-- What a call does. -/
lemma alone_prog (c : SyncCall) :
    Alone (Permitted relayUserId) (c.prog relayUserId) (Returns relayUserId) [] := by
  cases c with
  | callback outcome =>
    unfold SyncCall.prog syncCallback
    cases outcome with
    | error _ =>
      rintro _ _ rfl
      exact ⟨trivial, .failed⟩
    | ok _ =>
      rw [alone_bind]
      dsimp only
      rw [alone_bind]
      rintro all _ rfl
      refine ⟨trivial, ?_⟩
      apply alone_mono _ (alone_forM rfl (List.Subset.refl _))
      rintro (e | _) past outcome
      · obtain ⟨done, room, es, es', rfl, settled, aborts⟩ := outcome
        rintro _ _ rfl
        refine ⟨trivial, ?_⟩
        change Pass relayUserId ([⟨.invitedRooms, all⟩] ++ (es ++ es') ++ [⟨.storeSyncReady false, ()⟩])
        rw [List.append_assoc, List.append_assoc]
        exact .aborted settled aborts
      · obtain ⟨es, rfl, settled⟩ := outcome
        rintro s _ rfl
        refine ⟨trivial, ?_⟩
        rintro _ _ rfl
        refine ⟨⟨_, _, settled, rfl⟩, ?_⟩
        rintro _ _ rfl
        have before : [⟨.invitedRooms, all⟩] ++ es ++ [⟨.now, s⟩] ++ [⟨.storeLastMatrixSyncMs s, ()⟩] =
            (⟨.invitedRooms, all⟩ :: es ++ [⟨.now, s⟩, ⟨.storeLastMatrixSyncMs s, ()⟩] : Past) := by
          simp only [List.append_assoc, List.cons_append, List.nil_append]
        refine ⟨⟨all, es, s, settled, before⟩, ?_⟩
        change Pass relayUserId ([⟨.invitedRooms, all⟩] ++ es ++ [⟨.now, s⟩] ++
          [⟨.storeLastMatrixSyncMs s, ()⟩] ++ [⟨.storeSyncReady true, ()⟩])
        rw [before, List.append_assoc]
        exact .succeeded settled
  | ended =>
    rintro _ _ rfl
    exact ⟨trivial, .failed⟩
  | ready =>
    rintro p _ rfl
    refine ⟨trivial, ?_⟩
    cases p with
    | error _ => trivial
    | ok _ =>
      rintro b _ rfl
      refine ⟨trivial, ?_⟩
      rintro s _ rfl
      refine ⟨trivial, ?_⟩
      rintro n _ rfl
      refine ⟨trivial, ?_⟩
      change Alone _ (some <$> if (!matrixSyncIsFresh n s b) = true then
        pure (Except.error ProblemCode.relayUnavailable) else pure (Except.ok ())) _ _
      cases fresh : matrixSyncIsFresh n s b with
      | false => trivial
      | true =>
        cases b with
        | false => nomatch fresh
        | true => exact ⟨_, s, n, fresh, rfl⟩

/-! ## What a pass has done -/

/-- Every invitation has been declined, or accepted and the room left again, or the relay is in a room of two
parties. -/
def Served (relayUserId : String) (rooms : List InvitedRoom) (es : Past) : Prop :=
  ∀ room ∈ rooms, ⟨.leave room.roomId, .ok ()⟩ ∈ es ∨ (Invited relayUserId room ∧ ∃ joined,
    [⟨.join room.roomId, .ok ()⟩, ⟨.getRoom room.roomId, some joined⟩] <:+: es ∧ TwoParty relayUserId joined)

/-- Invitations that are settled are served. -/
lemma SettlesAll.served {rooms : List InvitedRoom} {es : Past} (h : SettlesAll relayUserId rooms es) :
    Served relayUserId rooms es := by
  induction h with
  | nil => nofun
  | @cons room rooms es es' settles _ ih =>
    intro room' mem
    obtain rfl | mem := List.mem_cons.mp mem
    · cases settles with
      | rejected => exact .inl (by simp)
      | stayed invited party => exact .inr ⟨invited, _, ⟨[], es', rfl⟩, party⟩
      | left invited => exact .inl (by simp)
    · obtain left | ⟨invited, joined, inside, party⟩ := ih room' mem
      · exact .inl (List.mem_append_right _ left)
      · exact .inr ⟨invited, joined, inside.trans (List.suffix_append es es').isInfix, party⟩

/-- After a join the relay looks at the room, and leaves it unless it is one of two parties. -/
def Kept (relayUserId : String) (e : Event SyncOp SyncOp.Resp) (post : Past) : Prop :=
  ∀ id, e = ⟨.join id, .ok ()⟩ → ∃ joined post', post = ⟨.getRoom id, some joined⟩ :: post' ∧
    (TwoParty relayUserId joined ∨ post'.head? = some ⟨.leave id, .ok ()⟩)

/-- After the last join the relay has declared itself not ready. -/
def Withdrawn (e : Event SyncOp SyncOp.Resp) (post : Past) : Prop :=
  ∀ id, e = ⟨.join id, .ok ()⟩ →
    (∀ e' ∈ post, ∀ id', e'.op ≠ .join id') ∧ post.getLast? = some ⟨.storeSyncReady false, ()⟩

/-- While one invitation is settled, a room that is joined is kept or left. -/
lemma Settles.kept {room : InvitedRoom} {es : Past} (h : Settles relayUserId room es) :
    Followed (Kept relayUserId) es := by
  cases h with
  | rejected => exact .cons nofun .nil
  | stayed invited party =>
    refine .cons ?_ (.cons nofun .nil)
    rintro id ⟨⟩
    exact ⟨_, [], rfl, .inl party⟩
  | left invited =>
    refine .cons ?_ (.cons nofun (.cons nofun .nil))
    rintro id ⟨⟩
    exact ⟨_, _, rfl, .inr rfl⟩

/-- A room that is kept or left is so whatever comes then. -/
lemma kept_append {e : Event SyncOp SyncOp.Resp} {post post' : Past} (h : Kept relayUserId e post) :
    Kept relayUserId e (post ++ post') := by
  intro id same
  obtain ⟨joined, later, rfl, party | left⟩ := h id same
  · exact ⟨joined, later ++ post', rfl, .inl party⟩
  · exact ⟨joined, later ++ post', rfl, .inr (by rw [List.head?_append, left, Option.some_or])⟩

/-- While all invitations are settled, every room that is joined is kept or left. -/
lemma SettlesAll.kept {rooms : List InvitedRoom} {es : Past} (h : SettlesAll relayUserId rooms es) :
    Followed (Kept relayUserId) es := by
  induction h with
  | nil => exact .nil
  | cons settles _ ih => exact settles.kept.append (fun _ _ => kept_append) ih

/-- In every pass a room that was joined is kept or given up, or readiness is withdrawn. -/
lemma Pass.kept {past : Past} (h : Pass relayUserId past) :
    Followed (fun e post => Kept relayUserId e post ∨ Withdrawn e post) past := by
  cases h with
  | failed => exact .cons (.inl nofun) .nil
  | @aborted all rooms room es es' settled aborts =>
    refine .cons (.inl nofun) (settled.kept.append (fun _ _ h => .inl (kept_append h)) ?_)
    have last : Followed (fun e post => Kept relayUserId e post ∨ Withdrawn e post)
        [⟨.storeSyncReady false, ()⟩] := .cons (.inl nofun) .nil
    cases aborts with
    | unread => exact last
    | stuck => exact .cons (.inl nofun) last
    | @joined r es invited others =>
      refine .cons (.inr ?_) ?_
      · rintro id -
        refine ⟨?_, List.getLast?_concat⟩
        intro e he
        obtain he | he := List.mem_append.mp he
        · exact others e he
        · obtain rfl := List.mem_singleton.mp he
          exact fun _ => nofun
      · refine Followed.append (P := Kept relayUserId) (fun _ _ h => .inl (kept_append h)) ?_ last
        intro e post hs id same
        exact absurd (congrArg Event.op same) (others e (hs.subset (List.mem_cons_self ..)) id)
  | succeeded settled =>
    exact .cons (.inl nofun) (settled.kept.append (fun _ _ h => .inl (kept_append h))
      (.cons (.inl nofun) (.cons (.inl nofun) (.cons (.inl nofun) .nil))))

end Sync

variable {relayUserId : String} {ls : List (Shared.Label SyncOp SyncOp.Resp (Option (Except ProblemCode Unit)))}
  {C : Shared Atomics SyncOp SyncOp.Resp (Option (Except ProblemCode Unit))}

open Sync

/-- What a call does, it does in every run. -/
lemma starts (relayUserId : String) (p : Prog SyncOp SyncOp.Resp (Option (Except ProblemCode Unit)))
    (h : ∃ c : SyncCall, p = c.prog relayUserId) : Alone (Permitted relayUserId) p (Returns relayUserId) [] := by
  obtain ⟨c, rfl⟩ := h
  exact alone_prog c

/-- Whatever the homeserver answers and however the threads interleave, a callback joins a room only on an
invitation that the policy accepts; and when it returns, it has looked at every room it has joined, and is in a
room of two parties or has left it, or it has joined no other room since and readiness is withdrawn. -/
theorem invitations_are_settled (r : SyncRun relayUserId ls C) :
    (∀ lb ∈ ls, ∀ id, lb.event.op = .join id → ∃ rooms, lb.past.head? = some ⟨.invitedRooms, rooms⟩ ∧
      ∃ room ∈ rooms, room.roomId = id ∧ Invited relayUserId room) ∧
    ∀ t past, C.threads t = some ⟨.ret none, past⟩ →
      Followed (fun e post => Kept relayUserId e post ∨ Withdrawn e post) past := by
  constructor
  · rintro ⟨t, past, ⟨o, x⟩, rest⟩ hl id rfl
    exact r.permitted (starts relayUserId) hl
  · intro t past h
    exact (r.returned (starts relayUserId) h).kept

/-- The time that is stored. -/
def storedTime : Event SyncOp SyncOp.Resp → Option Int64
  | ⟨.storeLastMatrixSyncMs s, _⟩ => some s
  | _ => none

/-- Only a store adds a time. -/
lemma Atomics.Answers.times {m m' : Atomics} {e : Event SyncOp SyncOp.Resp} (h : m.Answers e m') :
    m'.lastMatrixSyncMs = m.lastMatrixSyncMs ++ (storedTime e).toList := by
  obtain ⟨o, x⟩ := e
  cases o with
  | storeLastMatrixSyncMs s =>
    cases h
    rfl
  | storeSyncReady b =>
    cases h
    exact (List.append_nil _).symm
  | loadSyncReady => exact h.2 ▸ (List.append_nil _).symm
  | loadLastMatrixSyncMs => exact h.2 ▸ (List.append_nil _).symm
  | _ =>
    cases h
    exact (List.append_nil _).symm

/-- A fresh time is positive, and at most two minutes old. -/
lemma fresh_iff {n s : Int64} :
    matrixSyncIsFresh n s true = true ↔ 0 < s.toInt ∧ n.toInt - s.toInt ≤ 120000 := by
  have stale : matrixSyncStaleMs.toInt = 120000 := rfl
  have zero : (0 : Int64).toInt = 0 := rfl
  unfold matrixSyncIsFresh
  rw [Bool.true_and, Bool.and_eq_true, decide_eq_true_iff, decide_eq_true_iff, Int64.lt_iff_toInt_lt,
    Int64.le_iff_toInt_le, saturatingSub, toInt_saturate, stale, zero]
  omega

/-- Whatever else the threads do at the same time, when a request finds the relay ready, a callback has before
dealt with every invitation there was, and then read a time that is at most two minutes before the time of the
request, and stored it. The atomics begin as those of a relay that runs Matrix (`src/lib.rs`); one that does not
begins as ready. -/
theorem readiness_is_earned (r : SyncRun relayUserId ls C) {t : Nat} {past : Past}
    (h : C.threads t = some ⟨.ret (some (.ok ())), past⟩) :
    ∃ s n : Int64, ⟨.now, n⟩ ∈ past ∧ n.toInt - s.toInt ≤ 120000 ∧
      ∃ pre load post, ls = pre ++ load :: post ∧ load.thread = t ∧ load.event = ⟨.loadLastMatrixSyncMs, s⟩ ∧
        ∃ pass ∈ pre, pass.event = ⟨.storeLastMatrixSyncMs s, ()⟩ ∧
          ∃ rooms es, pass.past = ⟨.invitedRooms, rooms⟩ :: es ++ [⟨.now, s⟩] ∧ Served relayUserId rooms es := by
  obtain ⟨p, s, n, fresh, rfl⟩ := r.returned (starts relayUserId) h
  have third : [⟨.ping, p⟩, ⟨.loadSyncReady, true⟩, ⟨.loadLastMatrixSyncMs, s⟩, ⟨.now, n⟩] =
      ([⟨.ping, p⟩, ⟨.loadSyncReady, true⟩] : Past) ++ ⟨.loadLastMatrixSyncMs, s⟩ :: [⟨.now, n⟩] := rfl
  obtain ⟨load, mem, thread, -, event⟩ := r.done h third
  obtain ⟨pre, post, rfl⟩ := List.append_of_mem mem
  obtain ⟨C₁, k, m, r₁, -, read, -⟩ := r.before rfl
  rw [event] at read
  refine ⟨s, n, by simp, ?_, pre, load, post, rfl, thread, event, ?_⟩
  · exact (fresh_iff.mp fresh).2
  · obtain first | ⟨⟨u, done, ⟨o, x⟩, rest⟩, hp, w⟩ := r₁.written
        (fun (m : Atomics) e m' (a : m.Answers e m') => a.times) read.1
    · obtain rfl := List.mem_singleton.mp first
      exact absurd (fresh_iff.mp fresh).1 (lt_irrefl _)
    · cases o with
      | storeLastMatrixSyncMs s' =>
        cases w
        obtain ⟨rooms, es, settled, e⟩ := r₁.permitted (starts relayUserId) hp
        exact ⟨_, hp, rfl, rooms, es, e, settled.served⟩
      | _ => nomatch w

namespace Sample

/-- Alice invites the relay to her room. -/
def aliceInvite : InvitedRoom where
  state := .invited
  encrypted := false
  isDirect := .error ()
  requestEncryptionState := .ok ()
  syncMembers := .ok ()
  members := .ok [⟨"@alice:pseud0.org", .join⟩, ⟨matrixUserId, .invite⟩]
  membersNoSync := .ok []
  roomId := "!room:pseud0.org"
  encryptionUnknown := true
  joinedMembersCount := 0
  invitedMembersCount := 0

/-- The relay joins it, and stays. -/
def joinEvents : Past :=
  [⟨.invitedRooms, [aliceInvite]⟩, ⟨.join aliceInvite.roomId, .ok ()⟩, ⟨.getRoom aliceInvite.roomId, some aliceRoom⟩,
    ⟨.now, 1000⟩, ⟨.storeLastMatrixSyncMs 1000, ()⟩, ⟨.storeSyncReady true, ()⟩]

/-- The relay is found ready two minutes later. -/
def readyEvents : Past :=
  [⟨.ping, .ok ()⟩, ⟨.loadSyncReady, true⟩, ⟨.loadLastMatrixSyncMs, 1000⟩, ⟨.now, 121000⟩]

/-- The callback has ended, and nothing is left. -/
def isDone : Prog SyncOp SyncOp.Resp (Option (Except ProblemCode Unit)) × Past → Bool
  | (.ret none, []) => true
  | _ => false

/-- The callback of the sample ends with its events. -/
lemma feed_join : ((SyncCall.callback (.ok ())).prog matrixUserId).feed Event.op Event.resp joinEvents =
    (.ret none, []) := by
  have returns : isDone (((SyncCall.callback (.ok ())).prog matrixUserId).feed Event.op Event.resp joinEvents) =
    true := by decide +kernel
  unfold isDone at returns
  split at returns
  · assumption
  · cases returns

/-- A run in which the relay joins the room and is then found ready. -/
lemma sync_run : ∃ ls C, SyncRun matrixUserId ls C ∧ C.threads 0 = some ⟨.ret none, joinEvents⟩ ∧
    C.threads 1 = some ⟨.ret (some (.ok ())), readyEvents⟩ := by
  have start : SyncRun matrixUserId [] ⟨⟨[false], [0]⟩, fun _ => none⟩ := .init
  obtain ⟨ls, C, r, -, memory, threads⟩ := (start.spawn (t := 0) rfl ⟨.callback (.ok ()), rfl⟩).serve
    (Function.update_self ..) feed_join ⟨_, rfl, _, rfl, _, rfl, _, rfl, _, rfl, _, rfl, rfl⟩
  have free : C.threads 1 = none := by rw [threads]; rfl
  have served : Serves Atomics.Answers C.memory readyEvents C.memory := by
    rw [memory]
    exact ⟨_, rfl, _, ⟨by simp, rfl⟩, _, ⟨by simp, rfl⟩, _, rfl, rfl⟩
  obtain ⟨ls', C', r', -, -, threads'⟩ := (r.spawn free ⟨.ready, rfl⟩).serve (Function.update_self ..)
    (q := .ret (some (.ok ()))) rfl served
  refine ⟨_, C', r', ?_, threads' ▸ Function.update_self ..⟩
  rw [threads']
  change C.threads 0 = _
  rw [threads]
  rfl

end Sample

/-- The relay has joined the room of Alice, and nothing else. -/
theorem invitations_are_settled_alice : ∃ ls C, SyncRun matrixUserId ls C ∧
    C.threads 0 = some ⟨.ret none, Sample.joinEvents⟩ ∧
    Followed (fun e post => Kept matrixUserId e post ∨ Withdrawn e post) Sample.joinEvents := by
  obtain ⟨ls, C, r, joined, -⟩ := Sample.sync_run
  exact ⟨ls, C, r, joined, (invitations_are_settled r).2 0 _ joined⟩

/-- The relay is ready two minutes after it has joined the room of Alice. -/
theorem readiness_is_earned_alice : ∃ ls C, SyncRun matrixUserId ls C ∧
    C.threads 1 = some ⟨.ret (some (.ok ())), Sample.readyEvents⟩ ∧
    ∃ s n : Int64, ⟨.now, n⟩ ∈ Sample.readyEvents ∧ n.toInt - s.toInt ≤ 120000 := by
  obtain ⟨ls, C, r, -, ready⟩ := Sample.sync_run
  obtain ⟨s, n, read, age, -⟩ := readiness_is_earned r ready
  exact ⟨ls, C, r, ready, s, n, read, age⟩

end WebLoginRelay
