import Mathlib

/-!
# The ledger of a login service

What a login service is for, without its database, its messages and its concurrency. Sites register logins;
a user asks for a login and is its holder from then on; the holder approves or refuses it; and a user who is
linked to a site unlinks again. A site is owed a message for each approval and each unlinking.

The state of a ledger is determined by what has been done: whether a user is linked to a site by the last approval
or unlinking of the user there (`Run.linked_eq`), and what the sites are owed by all approvals and unlinkings
(`Run.messages_eq`).
-/

namespace Ledger

variable {Site Session Nonce User Room : Type}

/-- How far a login has come. -/
inductive Phase where
  | registered
  | asked
  | refused
  | approved
  | delivered
  | unlinked
  deriving DecidableEq, Repr

/-- A login. Its holder is the user who has asked for it, in a room. -/
structure Login (Nonce User Room : Type) where
  nonce : Nonce
  holder : Option (User × Room)
  phase : Phase

/-- What a site is owed. -/
inductive Message (Site Session Nonce User : Type) where
  | login (site : Site) (session : Session) (nonce : Nonce) (user : User)
  | unlink (site : Site) (user : User)

/-- The logins of the sites, the users who are linked to a site or have been, and what the sites are owed. -/
structure State (Site Session Nonce User Room : Type) where
  logins : Site → Session → Option (Login Nonce User Room)
  linked : Site → User → Option Bool
  messages : List (Message Site Session Nonce User)

/-- What can be done. -/
inductive Act (Site Session Nonce User Room : Type) where
  | register (site : Site) (session : Session) (nonce : Nonce)
  | ask (site : Site) (session : Session) (user : User) (room : Room)
  | refuse (site : Site) (session : Session) (user : User)
  | approve (site : Site) (session : Session) (nonce : Nonce) (user : User)
  | unlink (site : Site) (session : Session) (user : User)
  | confirm (site : Site) (session : Session)

open Classical

namespace State

/-- Before anything is done. -/
def empty : State Site Session Nonce User Room := ⟨fun _ _ => none, fun _ _ => none, []⟩

variable (L : State Site Session Nonce User Room)

/-- Write a login. -/
noncomputable def put (site : Site) (session : Session) (l : Login Nonce User Room) : State Site Session Nonce User Room :=
  { L with logins := fun s i => if s = site ∧ i = session then some l else L.logins s i }

/-- Link a user to a site, or unlink. -/
noncomputable def link (site : Site) (user : User) (b : Bool) : State Site Session Nonce User Room :=
  { L with linked := fun s u => if s = site ∧ u = user then some b else L.linked s u }

/-- Owe a message. -/
def send (m : Message Site Session Nonce User) : State Site Session Nonce User Room :=
  { L with messages := L.messages ++ [m] }

section Fields
variable (site : Site) (session : Session) (user : User) (l : Login Nonce User Room) (b : Bool)
  (m : Message Site Session Nonce User)

@[simp] lemma put_linked : (L.put site session l).linked = L.linked := rfl
@[simp] lemma put_messages : (L.put site session l).messages = L.messages := rfl
@[simp] lemma link_logins : (L.link site user b).logins = L.logins := rfl
@[simp] lemma link_messages : (L.link site user b).messages = L.messages := rfl
@[simp] lemma send_logins : (L.send m).logins = L.logins := rfl
@[simp] lemma send_linked : (L.send m).linked = L.linked := rfl
@[simp] lemma send_messages : (L.send m).messages = L.messages ++ [m] := rfl

/-- The login that was written. -/
lemma put_self : (L.put site session l).logins site session = some l := if_pos ⟨rfl, rfl⟩

/-- The other logins stay. -/
lemma put_of_ne {s : Site} {i : Session} (h : ¬ (s = site ∧ i = session)) :
    (L.put site session l).logins s i = L.logins s i := if_neg h

/-- The link that was written. -/
lemma link_self : (L.link site user b).linked site user = some b := if_pos ⟨rfl, rfl⟩

/-- The other links stay. -/
lemma link_of_ne {s : Site} {u : User} (h : ¬ (s = site ∧ u = user)) :
    (L.link site user b).linked s u = L.linked s u := if_neg h

end Fields

end State

/-- The steps of a ledger. -/
inductive Step : State Site Session Nonce User Room → Act Site Session Nonce User Room →
    State Site Session Nonce User Room → Prop where
  | register {L site session nonce} : L.logins site session = none →
    Step L (.register site session nonce) (L.put site session ⟨nonce, none, .registered⟩)
  | ask {L site session user room l} : L.logins site session = some l → l.holder = none →
    Step L (.ask site session user room) (L.put site session ⟨l.nonce, some (user, room), .asked⟩)
  | refuse {L site session user room l} : L.logins site session = some l → l.holder = some (user, room) →
    Step L (.refuse site session user) (L.put site session { l with phase := .refused })
  | approve {L site session user room l} : L.logins site session = some l → l.holder = some (user, room) →
    Step L (.approve site session l.nonce user) (((L.put site session { l with phase := .approved }).link site
      user true).send (.login site session l.nonce user))
  /-- Through any login of the site. -/
  | unlink {L site session user l} : L.logins site session = some l → L.linked site user = some true →
    Step L (.unlink site session user) (((L.put site session { l with phase := .unlinked }).link site user
      false).send (.unlink site user))
  | confirm {L site session user l} : L.logins site session = some l →
    .login site session l.nonce user ∈ L.messages →
    Step L (.confirm site session) (L.put site session { l with phase := .delivered })

/-- The runs of a ledger. -/
inductive Run : List (Act Site Session Nonce User Room) → State Site Session Nonce User Room → Prop where
  | empty : Run [] .empty
  | step {acts L act L'} : Run acts L → Step L act L' → Run (acts ++ [act]) L'

/-- What an act says about the link of a user to a site. -/
noncomputable def Act.linkWord (site : Site) (user : User) : Act Site Session Nonce User Room → Option Bool
  | .approve s _ _ u => if s = site ∧ u = user then some true else none
  | .unlink s _ u => if s = site ∧ u = user then some false else none
  | _ => none

/-- What an act owes. -/
def Act.owes : Act Site Session Nonce User Room → Option (Message Site Session Nonce User)
  | .approve site session nonce user => some (.login site session nonce user)
  | .unlink site _ user => some (.unlink site user)
  | _ => none

/-- The last that has been said of a link. -/
noncomputable def lastWord (site : Site) (user : User) (acts : List (Act Site Session Nonce User Room)) : Option Bool :=
  (acts.filterMap (Act.linkWord site user)).getLast?

variable {acts : List (Act Site Session Nonce User Room)} {act : Act Site Session Nonce User Room}
  {L L' : State Site Session Nonce User Room}

/-- What a step does to a link. -/
lemma Step.linked (s : Step L act L') (site : Site) (user : User) :
    L'.linked site user = (act.linkWord site user).or (L.linked site user) := by
  cases s with
  | @approve site' session user' room l h holder =>
    by_cases same : site = site' ∧ user = user'
    · obtain ⟨rfl, rfl⟩ := same
      rw [Act.linkWord, if_pos ⟨rfl, rfl⟩]
      exact State.link_self ..
    · rw [Act.linkWord, if_neg (fun h => same ⟨h.1.symm, h.2.symm⟩)]
      exact State.link_of_ne (h := same) ..
  | @unlink site' session user' l h active =>
    by_cases same : site = site' ∧ user = user'
    · obtain ⟨rfl, rfl⟩ := same
      rw [Act.linkWord, if_pos ⟨rfl, rfl⟩]
      exact State.link_self ..
    · rw [Act.linkWord, if_neg (fun h => same ⟨h.1.symm, h.2.symm⟩)]
      exact State.link_of_ne (h := same) ..
  | _ => rfl

/-- The login that an act writes. -/
inductive Writes (L : State Site Session Nonce User Room) (site : Site) (session : Session) :
    Act Site Session Nonce User Room → Login Nonce User Room → Prop where
  | register {nonce phase} : L.logins site session = none →
    Writes L site session (.register site session nonce) ⟨nonce, none, phase⟩
  | ask {user room l phase} : L.logins site session = some l → l.holder = none →
    Writes L site session (.ask site session user room) ⟨l.nonce, some (user, room), phase⟩
  | move {act l phase} : L.logins site session = some l → (∀ s i user room, act ≠ .ask s i user room) →
    Writes L site session act { l with phase := phase }

/-- A step writes one login. -/
lemma Step.writes (s : Step L act L') : ∃ site session l, Writes L site session act l ∧
    L'.logins = (L.put site session l).logins := by
  cases s with
  | register free => exact ⟨_, _, _, .register free, rfl⟩
  | ask h free => exact ⟨_, _, _, .ask h free, rfl⟩
  | refuse h holder => exact ⟨_, _, _, .move h nofun, rfl⟩
  | approve h holder => exact ⟨_, _, _, .move h nofun, rfl⟩
  | unlink h active => exact ⟨_, _, _, .move h nofun, rfl⟩
  | confirm h sent => exact ⟨_, _, _, .move h nofun, rfl⟩

namespace Run

/-- The step of an act of a run. -/
lemma split {pre post : List (Act Site Session Nonce User Room)} (r : Run acts L)
    (e : acts = pre ++ act :: post) : ∃ L₁ L₂, Run pre L₁ ∧ Step L₁ act L₂ := by
  induction r generalizing post with
  | empty => nomatch List.append_eq_nil_iff.mp e.symm
  | @step acts L act' L' r s ih =>
    obtain rfl | ⟨post, last, rfl⟩ := List.eq_nil_or_concat' post
    · obtain ⟨rfl, same⟩ := List.append_inj' e rfl
      cases same
      exact ⟨L, L', r, s⟩
    · rw [← List.cons_append, ← List.append_assoc] at e
      exact ih (List.append_inj' e rfl).1

/-- A user is linked to a site by the last approval or unlinking of the user there. -/
theorem linked_eq (r : Run acts L) (site : Site) (user : User) :
    L.linked site user = lastWord site user acts := by
  induction r with
  | empty => rfl
  | @step acts L act L' r s ih =>
    rw [s.linked, ih, lastWord, lastWord, List.filterMap_append, List.getLast?_append]
    congr 1
    cases word : act.linkWord site user with
    | none => rw [List.filterMap_cons_none word]; rfl
    | some b => rw [List.filterMap_cons_some word]; rfl

/-- What the sites are owed has been approved or unlinked, in this order. -/
theorem messages_eq (r : Run acts L) : L.messages = acts.filterMap Act.owes := by
  induction r with
  | empty => rfl
  | @step acts L act L' r s ih =>
    rw [List.filterMap_append, ← ih]
    cases s with
    | approve h holder => rfl
    | unlink h active => rfl
    | _ => exact (List.append_nil _).symm

/-- The holder of a login is the one user who has ever asked for it. -/
theorem holder_iff (r : Run acts L) {site : Site} {session : Session} {user : User} {room : Room} :
    .ask site session user room ∈ acts ↔
      ∃ l, L.logins site session = some l ∧ l.holder = some (user, room) := by
  induction r with
  | empty =>
    constructor
    · exact nofun
    · rintro ⟨_, h, _⟩
      nomatch h
  | @step acts L act L' r s ih =>
    obtain ⟨site', session', l', w, e⟩ := s.writes
    rw [List.mem_append, List.mem_singleton, ih, e]
    by_cases same : site = site' ∧ session = session'
    · obtain ⟨rfl, rfl⟩ := same
      have now : (∃ l, some l' = some l ∧ l.holder = some (user, room)) ↔ l'.holder = some (user, room) := by
        simp only [Option.some.injEq, exists_eq_left']
      rw [State.put_self, now]
      cases w with
      | register free =>
        constructor
        · rintro (⟨l, h, _⟩ | h)
          · nomatch free.symm.trans h
          · nomatch h
        · exact nofun
      | ask h free =>
        constructor
        · rintro (⟨l, h', holder⟩ | same)
          · cases h.symm.trans h'
            nomatch free.symm.trans holder
          · cases same
            rfl
        · intro holder
          cases holder
          exact .inr rfl
      | @move _ l _ h other =>
        constructor
        · rintro (⟨l', h', holder⟩ | same)
          · cases h.symm.trans h'
            exact holder
          · exact absurd same.symm (other _ _ _ _)
        · exact fun holder => .inl ⟨l, h, holder⟩
    · rw [State.put_of_ne (h := same)]
      constructor
      · rintro (h | rfl)
        · exact h
        · cases w with
          | ask _ _ => exact absurd ⟨rfl, rfl⟩ same
          | move _ other => exact absurd rfl (other _ _ _ _)
      · exact .inl

/-- A login was registered with its nonce. -/
lemma registered (r : Run acts L) {site : Site} {session : Session} {l : Login Nonce User Room}
    (h : L.logins site session = some l) : .register site session l.nonce ∈ acts := by
  induction r generalizing l with
  | empty => nomatch h
  | @step acts L act L' r s ih =>
    obtain ⟨site', session', l', w, e⟩ := s.writes
    rw [e] at h
    by_cases same : site = site' ∧ session = session'
    · obtain ⟨rfl, rfl⟩ := same
      obtain rfl := Option.some.inj ((State.put_self ..).symm.trans h)
      cases w with
      | register _ => exact List.mem_append_right _ (List.mem_singleton_self _)
      | ask old _ =>
        have mem := ih old
        exact List.mem_append_left _ mem
      | move old _ =>
        have mem := ih old
        exact List.mem_append_left _ mem
    · rw [State.put_of_ne (h := same)] at h
      exact List.mem_append_left _ (ih h)

/-- Who approves a login has asked for it before. -/
theorem approved {pre post : List (Act Site Session Nonce User Room)} {site : Site} {session : Session}
    {nonce : Nonce} {user : User} (r : Run acts L) (e : acts = pre ++ .approve site session nonce user :: post) :
    .register site session nonce ∈ pre ∧ ∃ room, .ask site session user room ∈ pre := by
  obtain ⟨L₁, L₂, r₁, s⟩ := r.split e
  cases s with
  | @approve _ _ _ room l h holder => exact ⟨r₁.registered h, room, r₁.holder_iff.mpr ⟨l, h, holder⟩⟩

/-- Who unlinks was linked. -/
theorem unlinked {pre post : List (Act Site Session Nonce User Room)} {site : Site} {session : Session}
    {user : User} (r : Run acts L) (e : acts = pre ++ .unlink site session user :: post) :
    lastWord site user pre = some true := by
  obtain ⟨L₁, L₂, r₁, s⟩ := r.split e
  cases s with
  | unlink h active => rw [← r₁.linked_eq, active]

end Run

end Ledger
