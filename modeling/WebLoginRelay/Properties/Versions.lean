import WebLoginRelay.Properties.Atomicity
import WebLoginRelay.System.Locking

/-!
# Versions of sessions

The version of a session counts the commits that update it. Three callers of `cas_update` do not look at what
it returns; they need not, since the row they update is one they have read `FOR UPDATE` in the same
transaction, so that the update finds it whatever other calls do.
-/

namespace WebLoginRelay
open Text Txn

variable {st : AppState} {S S' : Sys} {lb : Label} {ls : List Label} {db : Db}

/-- The entry updates the session with this id. -/
def Entry.Updates (id : Nat) : Entry → Bool
  | .sessionUpdate row _ => row.id == id
  | _ => false

/-- The entries that reach the database with a step. -/
def Label.writes : Label → List Entry
  | .act _ _ _ a => a.writes
  | _ => []

/-- The step commits a transition of the session with this id. -/
def Label.Transits (id : Nat) (lb : Label) : Bool := lb.writes.any (Entry.Updates id)

/-- A step replays a valid journal. -/
lemma Step.replays (inv : Sys.Inv st S) (s : Step st S lb S') :
    journal.Valid S.db lb.writes ∧ S'.db = journal.replay S.db lb.writes := by
  cases s with
  | spawn => exact ⟨trivial, rfl⟩
  | cancel => exact ⟨trivial, rfl⟩
  | @act t input o k l r es seqs task s fr =>
    refine ⟨?_, rfl⟩
    cases s with
    | commit _ _ => exact inv.valid task
    | @auto a now locked _ _ _ _ => exact a.run_valid S.db S.seqs now locked
    | @autoLost a now locked => exact a.run_valid S.db S.seqs now locked
    | _ => trivial

/-- A journal adds to the version of a session the number of its updates. -/
lemma version_of_replay {es : List Entry} {row : SessionRow} (vl : journal.Valid db es) (h : row ∈ db.sessions) :
    ∃ row' ∈ (journal.replay db es).sessions, row'.id = row.id ∧
      row'.version = row.version + es.countP (Entry.Updates row.id) := by
  induction es generalizing db row with
  | nil => exact ⟨row, h, rfl, rfl⟩
  | cons e es ih =>
    obtain ⟨holds, vl⟩ := vl
    have next {row₁ : SessionRow} (mem : row₁ ∈ (e.apply db).sessions) (id_eq : row₁.id = row.id)
        (version : row₁.version = row.version + [e].countP (Entry.Updates row.id)) :
        ∃ row' ∈ (journal.replay db (e :: es)).sessions, row'.id = row.id ∧
          row'.version = row.version + (e :: es).countP (Entry.Updates row.id) := by
      obtain ⟨row', mem', id', version'⟩ := ih vl mem
      refine ⟨row', mem', id'.trans id_eq, ?_⟩
      rw [version', version, id_eq, List.countP_cons (l := es), List.countP_singleton]
      omega
    cases e with
    | sessionUpdate old set =>
      refine next ((Db.mem_updateSession ..).mpr ⟨row, h, rfl⟩) (SessionSet.at_id ..) ?_
      by_cases e : row.id = old.id
      · have updates : Entry.Updates row.id (.sessionUpdate old set) = true := beq_iff_eq.mpr e.symm
        rw [SessionSet.at, if_pos e, List.countP_singleton, if_pos updates]
        rfl
      · have other : Entry.Updates row.id (.sessionUpdate old set) = false := beq_false_of_ne fun h => e h.symm
        rw [SessionSet.at_ne e, List.countP_singleton, other]
        rfl
    | sessionInsert new => exact next (Table.mem_insert.mpr (.inl h)) rfl rfl
    | _ => exact next h rfl rfl

/-- A journal that updates a session leaves it with a version above 0. -/
lemma updated_of_replay {es : List Entry} {id : Nat} (vl : journal.Valid db es) (h : es.any (Entry.Updates id)) :
    ∃ row ∈ (journal.replay db es).sessions, row.id = id ∧ 1 ≤ row.version := by
  obtain ⟨e, he, updates⟩ := List.any_eq_true.mp h
  obtain ⟨pre, post, rfl⟩ := List.append_of_mem he
  rw [journal.valid_append] at vl
  obtain ⟨_, holds, vl⟩ := vl
  cases e with
  | sessionUpdate row set =>
    have mem : set.on row ∈ ((Entry.sessionUpdate row set).apply (journal.replay db pre)).sessions :=
      (Db.mem_updateSession ..).mpr ⟨row, holds, if_pos rfl⟩
    obtain ⟨row', mem', id', version⟩ := version_of_replay vl mem
    rw [journal.replay_append]
    refine ⟨row', mem', id'.trans (beq_iff_eq.mp updates), ?_⟩
    have next : (set.on row).version = row.version + 1 := rfl
    omega
  | _ => nomatch updates

/-- Where a session comes from: it is new, or it was there, possibly before one update. -/
lemma Step.session_origin (inv : Sys.Inv st S) (s : Step st S lb S') {row' : SessionRow}
    (h : row' ∈ S'.db.sessions) :
    (∃ row ∈ S.db.sessions, row'.id = row.id ∧ (row' = row ∨ row'.version = row.version + 1)) ∨
      (∀ row ∈ S.db.sessions, row.id ≠ row'.id) ∧ row'.version = 0 := by
  obtain same | ⟨t, input, l, a, rfl, eff, ch⟩ := inv.step_change s
  · rw [same] at h
    exact .inl ⟨row', h, rfl, .inl rfl⟩
  · obtain ⟨row, mem, evolves⟩ | ⟨request, rfl, c, rfl⟩ := ch.session_origin h
    · obtain rfl | ⟨set, _, rfl⟩ := evolves
      · exact .inl ⟨row', mem, rfl, .inl rfl⟩
      · exact .inl ⟨row, mem, rfl, .inr rfl⟩
    · refine .inr ⟨fun row mem e => ?_, rfl⟩
      exact c.isNew ⟨row, mem, .inl e⟩

/-- A step moves the version of a session by one if it commits a transition of it, and else leaves the
session as it is. -/
theorem Step.version (inv : Sys.Inv st S) (s : Step st S lb S') {row : SessionRow} (h : row ∈ S.db.sessions) :
    ∃ row' ∈ S'.db.sessions, row'.id = row.id ∧
      if lb.Transits row.id then row'.version = row.version + 1 else row' = row := by
  obtain ⟨vl, e⟩ := s.replays inv
  obtain ⟨row', mem, id_eq, version⟩ := version_of_replay vl h
  rw [← e] at mem
  refine ⟨row', mem, id_eq, ?_⟩
  obtain ⟨old, mem', id', change⟩ | ⟨fresh, _⟩ := s.session_origin inv mem
  · obtain rfl := session_eq_of_id h mem' (id_eq.symm.trans id')
    split
    · rename_i transits
      have some_update : 0 < lb.writes.countP (Entry.Updates row.id) :=
        List.countP_pos_iff.mpr (List.any_eq_true.mp transits)
      obtain same | next := change
      · rw [same] at version
        omega
      · exact next
    · rename_i quiet
      have no_update : lb.writes.countP (Entry.Updates row.id) = 0 := by
        rw [List.countP_eq_zero]
        intro e he updates
        exact quiet (List.any_eq_true.mpr ⟨e, he, updates⟩)
      obtain same | next := change
      · exact same
      · omega
  · exact absurd id_eq.symm (fresh row h)

/-- The version of every session is the number of its transitions, and only sessions make transitions. -/
def VersionsCount (ls : List Label) (S : Sys) : Prop :=
  ∀ id, (∀ row ∈ S.db.sessions, row.id = id → row.version = ls.countP (Label.Transits id)) ∧
    (ls.countP (Label.Transits id) ≠ 0 → ∃ row ∈ S.db.sessions, row.id = id)

/-- Every step counts. -/
lemma VersionsCount.step (count : VersionsCount ls S) (inv : Sys.Inv st S) (s : Step st S lb S') :
    VersionsCount (ls ++ [lb]) S' := by
  intro id
  obtain ⟨versions, only⟩ := count id
  rw [List.countP_append, List.countP_singleton]
  constructor
  · rintro row' mem rfl
    obtain ⟨row, mem', id_eq, _⟩ | ⟨fresh, zero⟩ := s.session_origin inv mem
    · obtain ⟨row'', mem'', id'', version⟩ := s.version inv mem'
      obtain rfl := session_eq_of_id mem mem'' (id_eq.trans id''.symm)
      have old := versions row mem' id_eq.symm
      rw [id_eq] at old ⊢
      split at version
      · rename_i transits
        rw [if_pos transits]
        omega
      · rename_i quiet
        rw [if_neg quiet, version]
        exact old
    · have none : ls.countP (Label.Transits row'.id) = 0 := by
        by_contra some
        obtain ⟨row, mem', e⟩ := only some
        exact fresh row mem' e
      have quiet : ¬ lb.Transits row'.id := by
        intro transits
        obtain ⟨vl, e⟩ := s.replays inv
        obtain ⟨row, mem', id_eq, high⟩ := updated_of_replay vl transits
        rw [← e] at mem'
        obtain rfl := session_eq_of_id mem mem' id_eq.symm
        omega
      rw [none, if_neg quiet, zero]
  · intro some
    by_cases transits : lb.Transits id
    · obtain ⟨vl, e⟩ := s.replays inv
      obtain ⟨row, mem, id_eq, _⟩ := updated_of_replay vl transits
      exact ⟨row, e ▸ mem, id_eq⟩
    · rw [if_neg transits] at some
      obtain ⟨row, mem, rfl⟩ := only some
      obtain ⟨row', mem', id_eq, _⟩ := s.version inv mem
      exact ⟨row', mem', id_eq⟩

/-- The versions count in every run. -/
lemma Run.versionsCount (r : Run st ls S) : VersionsCount ls S := by
  induction r with
  | init => exact fun id => ⟨fun _ h => (nomatch h), fun h => absurd rfl h⟩
  | step r s ih => exact ih.step r.inv s

/-- An update that is answered has found its row. -/
lemma Run.update_finds (r : Run st ls S) {t input l id version set} {n : Nat} {es}
    (h : .act t input l ⟨.exec (.casUpdate id version set), Except.ok n, es⟩ ∈ ls) :
    n = 1 ∧ ∃ row, es = [.sessionUpdate row set] ∧ row.id = id ∧ row.version = version := by
  obtain ⟨pre, post, e⟩ := List.append_of_mem h
  obtain ⟨S₁, S₂, r₁, s, _⟩ := r.at e
  obtain ⟨row, hold, rfl, rfl⟩ := s.updatesHeld r₁ id version set rfl
  obtain ⟨k, seqs, task, o, _, _⟩ := s.act_inv
  have mem : row ∈ (journal.replay S₁.db l.log).sessions := by
    rw [sessions_of_replay hold.2]
    exact mem_of_sessionRead (r₁.inv.valid task) hold.2 hold.1
  obtain ⟨now, _, resp, rfl⟩ | ⟨failed, _⟩ := o.exec_inv
  · simp only [Query.run, find_session mem] at resp ⊢
    split at resp
    · rename_i le
      cases resp
      rw [if_pos le]
      exact ⟨rfl, row, rfl, rfl, rfl⟩
    · cases resp
  · cases failed

/-- No session update is lost: an update finds its row, a committed one moves the version by one, and the
version counts the committed ones. -/
theorem no_lost_session_update (r : Run st ls S) :
    (∀ t input l id version set (n : Nat) es,
      .act t input l ⟨.exec (.casUpdate id version set), Except.ok n, es⟩ ∈ ls →
        n = 1 ∧ ∃ row, es = [.sessionUpdate row set] ∧ row.id = id ∧ row.version = version) ∧
    (∀ lb S', Step st S lb S' → ∀ row ∈ S.db.sessions, ∃ row' ∈ S'.db.sessions, row'.id = row.id ∧
      if lb.Transits row.id then row'.version = row.version + 1 else row' = row) ∧
    ∀ row ∈ S.db.sessions, row.version = ls.countP (Label.Transits row.id) :=
  ⟨fun _ _ _ _ _ _ _ _ h => r.update_finds h, fun _ _ s _ h => s.version r.inv h,
    fun row h => (r.versionsCount row.id).1 row h rfl⟩

/-- The session of Alice's login has made two transitions. -/
theorem no_lost_session_update_alice : ∃ ls S row, Run Sample.relay ls S ∧ row ∈ S.db.sessions ∧
    row.version = 2 ∧ ls.countP (Label.Transits row.id) = 2 := by
  obtain ⟨S, run, _, hd, _⟩ := Sample.reaches_plain.run
  have versions : S.db.sessions.rows.map (·.version) = [2] := by
    rw [hd]
    decide +kernel
  obtain ⟨row, mem, e⟩ := List.mem_map.mp (versions ▸ List.mem_singleton_self _)
  exact ⟨_, S, row, run.run, mem, e, ((no_lost_session_update run.run).2.2 row mem).symm.trans e⟩

end WebLoginRelay
