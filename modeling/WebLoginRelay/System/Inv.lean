import WebLoginRelay.System.Calls

/-!
# Invariants of runs

In every run the journal of every open transaction is valid for the committed database, no two of them
lock one cell, and every call still to be finished stays within what is permitted. It follows that
each step of a run leaves the database as it is or makes one of the changes of `System.Change`, with
what its call has read and drawn before (`Run.step_change`). Results about runs are proved by
induction on the run with this one case distinction.
-/

namespace WebLoginRelay
open Text Txn

variable {st : AppState}

/-- The committed database and the journals. -/
def Sys.config (S : Sys) : Config Db Entry Nat := ⟨S.db, S.journalOf⟩

/-- What holds in every state of every run. -/
structure Sys.Inv (st : AppState) (S : Sys) : Prop where
  journals : Config.Inv journal S.config
  calls : ∀ {t task p}, S.tasks t = some task → task.rest = some p →
    Prog.wp Local.Poss Local.after (Permits st task.input) p (fun _ _ => True) task.loc

/-- The journals after one task was replaced. -/
lemma journalOf_set (S : Sys) (db : Db) (seqs : Seqs) (t : Nat) (task : Task) :
    Sys.journalOf ⟨db, seqs, S.set t task⟩ = Function.update S.journalOf t task.loc.log := by
  funext u
  by_cases h : u = t
  · subst h
    simp [Sys.journalOf, Sys.set]
  · simp [Sys.journalOf, Sys.set, h]

section Act
variable {db : Db} {seqs seqs' : Seqs} {l : Local} {a : Act} {js : Nat → List Entry} {t : Nat}

/-- Keeping a journal is a step without entries. -/
lemma step_same (hj : js t = l.log) (hl : (l.after a).log = l.log) (hw : a.writes = []) :
    Config.Step journal (⟨db, js⟩ : Config Db Entry Nat)
      ⟨journal.replay db a.writes, Function.update js t (l.after a).log⟩ := by
  have e : (l.after a).log = js t ++ [] := by rw [hl, hj, List.append_nil]
  rw [hw, e]
  exact .statement trivial fun u _ => by simp

/-- Giving up a journal is a rollback. -/
lemma step_clear (hl : (l.after a).log = []) (hw : a.writes = []) :
    Config.Step journal (⟨db, js⟩ : Config Db Entry Nat)
      ⟨journal.replay db a.writes, Function.update js t (l.after a).log⟩ := by
  rw [hl, hw]
  exact .rollback

/-- An autocommitted statement leaves the journals as they are. -/
lemma step_auto (hj : js t = l.log) (hl : (l.after a).log = l.log)
    (vl : journal.Valid db a.writes)
    (fr : ∀ u, Disjoint (journal.locks a.writes) (journal.locks (js u))) :
    Config.Step journal (⟨db, js⟩ : Config Db Entry Nat)
      ⟨journal.replay db a.writes, Function.update js t (l.after a).log⟩ := by
  rw [hl, ← hj, Function.update_eq_self]
  exact .autocommit vl fr

/-- An action is a step on the journals. -/
lemma OpStep.config (s : OpStep db seqs l a seqs') (hj : js t = l.log)
    (fr : ∀ u, a.waitsFor t u → Disjoint (journal.locks a.log) (journal.locks (js u))) :
    Config.Step journal (⟨db, js⟩ : Config Db Entry Nat)
      ⟨journal.replay db a.writes, Function.update js t (l.after a).log⟩ := by
  cases s with
  | now => exact step_same hj rfl rfl
  | fillBytes => exact step_same hj rfl rfl
  | request => exact step_same hj rfl rfl
  | sendNotice => exact step_same hj rfl rfl
  | begin answer =>
    cases answer with
    | ok => exact step_clear rfl rfl
    | error => exact step_same hj rfl rfl
  | @exec q now e =>
    have vl := q.run_valid (journal.replay db l.log) seqs now
    generalize q.run (journal.replay db l.log) seqs now = out at fr vl ⊢
    obtain ⟨resp, log, seqs'⟩ := out
    cases resp with
    | error => exact step_clear rfl rfl
    | ok r =>
      have vl' : journal.Valid (Config.view journal ⟨db, js⟩ t) log := by
        simpa [Config.view, hj] using vl
      simpa [Local.after, Local.txAfter, Act.writes, hj] using Config.Step.statement vl' fr
  | execFault => exact step_clear rfl rfl
  | commit answer e =>
    have c := Config.Step.commit (J := journal) (c := ⟨db, js⟩) (t := t)
    simpa [Config.view, Local.after, Local.txAfter, Act.writes, hj] using c
  | commitFault => exact step_clear rfl rfl
  | rollback => exact step_clear rfl rfl
  | drop => exact step_clear rfl rfl
  | @auto a now locked r r' _ _ =>
    exact step_auto hj rfl (a.run_valid db seqs now locked) fun u => fr u trivial
  | @autoLost a now locked =>
    exact step_auto hj rfl (a.run_valid db seqs now locked) fun u => fr u trivial
  | autoFault => exact step_same hj rfl rfl

end Act

namespace Sys.Inv
variable {S S' : Sys}

/-- The invariant holds before any call. -/
lemma init : Sys.Inv st Sys.init where
  journals := Config.Inv.init journal Db.empty
  calls h := nomatch h

/-- The journal of a task is valid for the committed database. -/
lemma valid (inv : Sys.Inv st S) {t task} (h : S.tasks t = some task) :
    journal.Valid S.db task.loc.log := by
  have vl := inv.journals.valid t
  simpa [Sys.config, Sys.journalOf, h] using vl

/-- An action of a call is permitted, and the rest of the call stays within what is. -/
lemma act (inv : Sys.Inv st S) {t input o k l r es seqs}
    (h : S.tasks t = some ⟨input, some (.req o k), l⟩)
    (s : OpStep S.db S.seqs l ⟨o, r, es⟩ seqs) :
    Permits st input l ⟨o, r, es⟩ ∧ Prog.wp Local.Poss Local.after (Permits st input) (k r)
      (fun _ _ => True) (l.after ⟨o, r, es⟩) :=
  inv.calls h rfl r _ ⟨es, rfl, S.db, S.seqs, seqs, inv.valid h, s⟩

/-- Replacing one task keeps the calls of the others. -/
lemma calls_set (inv : Sys.Inv st S) {t task}
    (h : ∀ p, task.rest = some p →
      Prog.wp Local.Poss Local.after (Permits st task.input) p (fun _ _ => True) task.loc)
    {u task' p} (e : S.set t task u = some task') (hr : task'.rest = some p) :
    Prog.wp Local.Poss Local.after (Permits st task'.input) p (fun _ _ => True) task'.loc := by
  by_cases hu : u = t
  · subst hu
    simp only [Sys.set, Function.update_self, Option.some.injEq] at e
    subst e
    exact h p hr
  · simp only [Sys.set, Function.update_of_ne hu] at e
    exact inv.calls e hr

/-- Every step keeps the invariant. -/
theorem step {lb} (inv : Sys.Inv st S) (s : Step st S lb S') : Sys.Inv st S' := by
  cases s with
  | @spawn t input free wf =>
    refine ⟨?_, calls_set inv fun p e => ?_⟩
    · rw [Sys.config, journalOf_set]
      exact inv.journals.step journal .rollback
    · cases e
      exact wp_prog st input
  | @act t input o k l r es seqs h s fr =>
    refine ⟨?_, calls_set inv fun p e => ?_⟩
    · rw [Sys.config, journalOf_set]
      refine inv.journals.step journal (s.config ?_ fr)
      simp [Sys.journalOf, h]
    · cases e
      exact (inv.act h s).2
  | @cancel t input p l h =>
    refine ⟨?_, calls_set inv fun p e => absurd e.symm (Option.some_ne_none p)⟩
    rw [Sys.config, journalOf_set]
    exact inv.journals.step journal .rollback

end Sys.Inv

/-- The invariant holds in every state of every run. -/
theorem Run.inv {ls S} (r : Run st ls S) : Sys.Inv st S := by
  induction r with
  | init => exact .init
  | step _ s ih => exact ih.step s

/-! ## The change of a step -/

/-- Only a tick runs statements on a pooled connection. -/
lemma Permits.of_auto {input : Input} {l : Local} {au : Auto} {r es}
    (ok : Permits st input l ⟨.auto au, r, es⟩) : input = .tick := by
  cases au with
  | claimDue limit => exact ok.1
  | markDelivered id => exact ok.1
  | markFailed id => exact ok.1

/-- An autocommitted statement of a tick is a change. -/
lemma Change.of_auto {db : Db} {seqs : Seqs} {now : DateTime} {locked : List Nat} {l : Local}
    {input : Input} {au : Auto} {r es}
    (ok : Permits st input l ⟨.auto au, r, es⟩) :
    Change st input l.past db (journal.replay db (au.run db seqs now locked).log) := by
  have marked {j : DeliveryJob} {status : JobStatus} (cl : Claimed l.past j)
      (why : status = .delivered ∨ (status = .failed ∧ 8 ≤ j.attempts)) :
      Change st .tick l.past db (journal.replay db (db.markJob seqs j.id status).log) := by
    unfold Db.markJob
    split
    · exact .keep
    · rename_i job e
      exact .mark cl why (List.mem_of_find?_eq_some e) (by simpa using List.find?_some e)
  cases au with
  | claimDue limit =>
    obtain ⟨rfl, rfl⟩ := ok
    simp only [Auto.run]
    split
    · exact .claim fun j hj => Db.mem_of_mem_dueJobs hj
    · exact .keep
  | markDelivered id =>
    obtain ⟨rfl, j, cl, rfl⟩ := ok
    exact marked cl (.inl rfl)
  | markFailed id =>
    obtain ⟨rfl, j, cl, rfl, many⟩ := ok
    exact marked cl (.inr ⟨rfl, many⟩)

/-- The actions that change the database: a commit of the whole journal, and a statement of a tick. -/
def Act.Effective (a : Act) (input : Input) (l : Local) : Prop :=
  (a.op = .commit ∧ a.log = l.log) ∨ (input = .tick ∧ ∃ au, a.op = .auto au)

/-- A call on an event changes the database by its commit. -/
lemma Act.Effective.commit {a : Act} {event : InboundEvent} {l : Local}
    (h : a.Effective (.inbound event) l) : a.op = .commit := by
  obtain ⟨op, _⟩ | ⟨tick, _⟩ := h
  · exact op
  · nomatch tick

/-- A step leaves the database as it is, or an action of a call changes it. -/
theorem Sys.Inv.step_change {S S' : Sys} {lb} (inv : Sys.Inv st S) (s : Step st S lb S') :
    S'.db = S.db ∨ ∃ t input l a, lb = .act t input l a ∧ a.Effective input l ∧
      Change st input l.past S.db S'.db := by
  cases s with
  | spawn => exact .inl rfl
  | cancel => exact .inl rfl
  | @act t input o k l r es seqs h s fr =>
    have ok := (inv.act h s).1
    cases s with
    | commit answer e => exact .inr ⟨t, input, l, _, rfl, .inl ⟨rfl, rfl⟩, ok S.db (inv.valid h)⟩
    | @auto au _ _ _ _ _ _ => exact .inr ⟨t, input, l, _, rfl, .inr ⟨ok.of_auto, au, rfl⟩, .of_auto ok⟩
    | @autoLost au _ _ => exact .inr ⟨t, input, l, _, rfl, .inr ⟨ok.of_auto, au, rfl⟩, .of_auto ok⟩
    | _ => exact .inl rfl

/-! ## Parts of runs -/

/-- A continuation of a run. -/
inductive Steps (st : AppState) : Sys → List Label → Sys → Prop where
  | nil {S} : Steps st S [] S
  | cons {S lb S' ls S''} : Step st S lb S' → Steps st S' ls S'' → Steps st S (lb :: ls) S''

/-- A run and its continuation. -/
lemma Run.append {ls ls' S S'} (r : Run st ls S) (s : Steps st S ls' S') : Run st (ls ++ ls') S' := by
  induction s generalizing ls with
  | nil => simpa using r
  | cons s _ ih => simpa using ih (r.step s)

/-- A step at the end of a continuation. -/
lemma Steps.snoc {ls lb S S' S''} (s : Steps st S ls S') (l : Step st S' lb S'') :
    Steps st S (ls ++ [lb]) S'' := by
  induction s with
  | nil => exact .cons l .nil
  | cons s _ ih => exact .cons s (ih l)

/-- Continuations in a row. -/
lemma Steps.append {ls ls' S S' S''} (s : Steps st S ls S') (s' : Steps st S' ls' S'') :
    Steps st S (ls ++ ls') S'' := by
  induction s with
  | nil => exact s'
  | cons s _ ih => exact .cons s (ih s')

/-- A run can be cut anywhere. -/
lemma Run.split {ls S} (r : Run st ls S) {ls₁ ls₂} (e : ls = ls₁ ++ ls₂) :
    ∃ S₁, Run st ls₁ S₁ ∧ Steps st S₁ ls₂ S := by
  induction r generalizing ls₂ with
  | init =>
    obtain ⟨rfl, rfl⟩ := List.append_eq_nil_iff.mp e.symm
    exact ⟨_, .init, .nil⟩
  | @step ls S lb S' r s ih =>
    obtain rfl | ⟨ls₃, lb', rfl⟩ := List.eq_nil_or_concat' ls₂
    · rw [List.append_nil] at e
      subst e
      exact ⟨S', r.step s, .nil⟩
    · rw [← List.append_assoc] at e
      obtain ⟨e', e''⟩ := List.append_inj' e rfl
      cases e''
      obtain ⟨S₁, r₁, s₁⟩ := ih e'
      exact ⟨S₁, r₁, s₁.snoc s⟩

/-- The states around a label of a continuation. -/
lemma Steps.at {S S' : Sys} {pre lb post} (s : Steps st S (pre ++ lb :: post) S') :
    ∃ S₁ S₂, Steps st S pre S₁ ∧ Step st S₁ lb S₂ ∧ Steps st S₂ post S' := by
  induction pre generalizing S with
  | nil =>
    cases s with
    | cons s s' => exact ⟨S, _, .nil, s, s'⟩
  | cons l pre ih =>
    cases s with
    | cons s s' =>
      obtain ⟨S₁, S₂, s₁, s₂, s₃⟩ := ih s'
      exact ⟨S₁, S₂, .cons s s₁, s₂, s₃⟩

/-- What every step keeps holds to the end. -/
lemma Steps.keep {P : Sys → Prop} {ls S S'} (s : Steps st S ls S') (inv : Sys.Inv st S)
    (h : ∀ {S lb S'}, Sys.Inv st S → Step st S lb S' → P S → P S') (p : P S) : P S' := by
  induction s with
  | nil => exact p
  | cons s _ ih => exact ih (inv.step s) (h inv s p)

/-- What every change keeps holds to the end. -/
lemma Steps.keep_db {P : Db → Prop} {ls S S'} (s : Steps st S ls S') (inv : Sys.Inv st S)
    (h : ∀ {input past db db'}, Change st input past db db' → P db → P db') (p : P S.db) : P S'.db := by
  refine s.keep (P := fun S => P S.db) inv (fun {S lb S'} inv s p => ?_) p
  obtain e | ⟨_, _, _, _, _, _, ch⟩ := inv.step_change s
  · rwa [e]
  · exact h ch p

/-- What holds of the empty database, and every change keeps, holds in every run. -/
lemma Run.keep_db {P : Db → Prop} {ls S} (r : Run st ls S) (init : P Db.empty)
    (h : ∀ {input past db db'}, Change st input past db db' → P db → P db') : P S.db := by
  induction r with
  | init => exact init
  | step r s ih => exact (Steps.cons s .nil).keep_db r.inv h ih

/-- The runs whose steps all meet a condition on the state before them. -/
inductive RunWhen (st : AppState) (C : Sys → Label → Prop) : List Label → Sys → Prop where
  | init : RunWhen st C [] Sys.init
  | step {ls S lb S'} : RunWhen st C ls S → C S lb → Step st S lb S' → RunWhen st C (ls ++ [lb]) S'

/-- The continuations whose steps all meet a condition. -/
inductive StepsWhen (st : AppState) (C : Sys → Label → Prop) : Sys → List Label → Sys → Prop where
  | nil {S} : StepsWhen st C S [] S
  | cons {S lb S' ls S''} : C S lb → Step st S lb S' → StepsWhen st C S' ls S'' →
    StepsWhen st C S (lb :: ls) S''

/-- Runs whose steps meet a condition are runs. -/
lemma RunWhen.run {C ls S} (r : RunWhen st C ls S) : Run st ls S := by
  induction r with
  | init => exact .init
  | step _ _ s ih => exact ih.step s

/-- Every label of such a run met the condition. -/
lemma RunWhen.holds {C ls S} (r : RunWhen st C ls S) {lb} (h : lb ∈ ls) : ∃ S, C S lb := by
  induction r with
  | init => nomatch h
  | step _ c _ ih =>
    obtain h | h := List.mem_append.mp h
    · exact ih h
    · exact List.mem_singleton.mp h ▸ ⟨_, c⟩

/-- Continuations whose steps meet a condition are continuations. -/
lemma StepsWhen.steps {C ls S S'} (s : StepsWhen st C S ls S') : Steps st S ls S' := by
  induction s with
  | nil => exact .nil
  | cons _ s _ ih => exact .cons s ih

/-- Continuations can be put together. -/
lemma StepsWhen.append {C ls ls' S S' S''} (s : StepsWhen st C S ls S') (s' : StepsWhen st C S' ls' S'') :
    StepsWhen st C S (ls ++ ls') S'' := by
  induction s with
  | nil => exact s'
  | cons c s _ ih => exact .cons c s (ih s')

/-- The states around a label of a continuation. -/
lemma StepsWhen.at {C S S' pre lb post} (s : StepsWhen st C S (pre ++ lb :: post) S') :
    ∃ S₁ S₂, StepsWhen st C S pre S₁ ∧ C S₁ lb ∧ Step st S₁ lb S₂ ∧ StepsWhen st C S₂ post S' := by
  induction pre generalizing S with
  | nil =>
    cases s with
    | cons c s s' => exact ⟨S, _, .nil, c, s, s'⟩
  | cons l pre ih =>
    cases s with
    | cons c s s' =>
      obtain ⟨S₁, S₂, s₁, rest⟩ := ih s'
      exact ⟨S₁, S₂, .cons c s s₁, rest⟩

/-- A continuation that meets the condition continues such a run. -/
lemma RunWhen.append {C ls ls' S S'} (r : RunWhen st C ls S) (s : StepsWhen st C S ls' S') :
    RunWhen st C (ls ++ ls') S' := by
  induction s generalizing ls with
  | nil => simpa using r
  | cons c s _ ih => simpa using ih (r.step c s)

/-- What a task has done is among the labels of the run, in its order. -/
lemma Run.past_order {ls S} (r : Run st ls S) {t task} (h : S.tasks t = some task) {pre a post}
    (e : task.loc.past = pre ++ a :: post) : ∃ l, l.past = pre ∧ .act t task.input l a ∈ ls := by
  induction r generalizing t task post with
  | init => nomatch h
  | @step ls S lb S' r s ih =>
    -- a task that did not move had done everything before
    have old {task' post} (h : S.tasks t = some task') (e : task'.loc.past = pre ++ a :: post) :
        ∃ l, l.past = pre ∧ .act t task'.input l a ∈ ls ++ [lb] := by
      obtain ⟨l, hl, mem⟩ := ih h e
      exact ⟨l, hl, List.mem_append_left _ mem⟩
    cases s with
    | @spawn u input free wf =>
      by_cases hu : t = u
      · subst hu
        simp only [Sys.set, Function.update_self, Option.some.injEq] at h
        subst h
        nomatch List.append_eq_nil_iff.mp e.symm
      · simp only [Sys.set, Function.update_of_ne hu] at h
        exact old h e
    | @act u input o k l r es seqs hm s fr =>
      by_cases hu : t = u
      · subst hu
        simp only [Sys.set, Function.update_self, Option.some.injEq] at h
        subst h
        obtain rfl | ⟨post', b, rfl⟩ := List.eq_nil_or_concat' post
        · obtain ⟨same, last⟩ := List.append_inj' e rfl
          cases last
          exact ⟨l, same, by simp⟩
        · rw [← List.cons_append, ← List.append_assoc] at e
          obtain ⟨l', hl⟩ := old hm (List.append_inj' e rfl).1
          exact ⟨l', hl⟩
      · simp only [Sys.set, Function.update_of_ne hu] at h
        exact old h e
    | @cancel u input p l hm =>
      by_cases hu : t = u
      · subst hu
        simp only [Sys.set, Function.update_self, Option.some.injEq] at h
        subst h
        obtain ⟨l', hl⟩ := old hm e
        exact ⟨l', hl⟩
      · simp only [Sys.set, Function.update_of_ne hu] at h
        exact old h e

/-- What a task has done is among the labels of the run. -/
lemma Run.past {ls S} (r : Run st ls S) {t task} (h : S.tasks t = some task) {a : Act}
    (ha : a ∈ task.loc.past) : ∃ l, .act t task.input l a ∈ ls := by
  obtain ⟨pre, post, e⟩ := List.append_of_mem ha
  obtain ⟨l, _, mem⟩ := r.past_order h e
  exact ⟨l, mem⟩

/-- The state before a label of a run. -/
lemma Run.at {ls S pre lb post} (r : Run st ls S) (e : ls = pre ++ lb :: post) :
    ∃ S₁ S₂, Run st pre S₁ ∧ Step st S₁ lb S₂ ∧ Steps st S₂ post S := by
  obtain ⟨S₁, r₁, s₁⟩ := r.split e
  cases s₁ with
  | cons s s₂ => exact ⟨S₁, _, r₁, s, s₂⟩

/-- What an action label says about the states around it. -/
lemma Step.act_inv {S S' : Sys} {t input l a} (s : Step st S (.act t input l a) S') :
    ∃ k seqs, S.tasks t = some ⟨input, some (.req a.op k), l⟩ ∧ OpStep S.db S.seqs l a seqs ∧
      S'.db = journal.replay S.db a.writes ∧
      S'.tasks t = some ⟨input, some (k a.resp), l.after a⟩ := by
  cases s with
  | act h s fr => exact ⟨_, _, h, s, rfl, by simp [Sys.set]⟩

/-- A commit that was answered has replayed a valid journal. -/
lemma Step.commit_inv {S S' : Sys} {t input l es} (inv : Sys.Inv st S)
    (s : Step st S (.act t input l ⟨.commit, Except.ok (), es⟩) S') :
    journal.Valid S.db es ∧ S'.db = journal.replay S.db es := by
  obtain ⟨k, seqs, h, o, e, _⟩ := s.act_inv
  cases o with
  | commit _ _ => exact ⟨inv.valid h, e⟩

/-- A statement that was answered ran on the database with the journal replayed. -/
lemma OpStep.exec_inv {db : Db} {seqs seqs' : Seqs} {l : Local} {q : Query} {r es}
    (o : OpStep db seqs l ⟨.exec q, r, es⟩ seqs') :
    (∃ now, l.tx = some now ∧ r = (q.run (journal.replay db l.log) seqs now).resp ∧
      es = (q.run (journal.replay db l.log) seqs now).log) ∨ (r = .error .other ∧ es = []) := by
  cases o with
  | exec h => exact .inl ⟨_, h, rfl, rfl⟩
  | execFault => exact .inr ⟨rfl, rfl⟩

/-- Claimed jobs were due. -/
lemma OpStep.claim_inv {db : Db} {seqs seqs' : Seqs} {l : Local} {limit : Nat}
    {jobs : List DeliveryJob} {es}
    (o : OpStep db seqs l ⟨.auto (.claimDue limit), Except.ok jobs, es⟩ seqs') :
    ∃ now, ∀ job ∈ jobs, ∃ j ∈ db.jobs, j.isDue now ∧
      job = (JobSet.claim (now + retryInterval)).on j := by
  cases o with
  | @auto _ now locked r _ run perm =>
    refine ⟨now, fun job hj => ?_⟩
    simp only [Auto.run] at run
    split at run
    · cases run
      obtain ⟨j, hd, rfl⟩ := List.mem_map.mp (List.Perm.mem_iff perm |>.mpr hj)
      obtain ⟨mem, due⟩ := Db.mem_of_mem_dueJobs hd
      exact ⟨j, mem, due, rfl⟩
    · cases run

/-- A statement on a pooled connection updates jobs only. -/
lemma OpStep.auto_log {db : Db} {seqs seqs' : Seqs} {l : Local} {au : Auto} {r es}
    (o : OpStep db seqs l ⟨.auto au, r, es⟩ seqs') : ∀ e ∈ es, ∃ j set, e = .jobUpdate j set := by
  have run (now : DateTime) (locked : List Nat) :
      ∀ e ∈ (au.run db seqs now locked).log, ∃ j set, e = .jobUpdate j set := by
    have mark (id : Nat) (status : JobStatus) :
        ∀ e ∈ (db.markJob seqs id status).log, ∃ j set, e = .jobUpdate j set := by
      intro e he
      unfold Db.markJob at he
      split at he
      · cases he
      · exact ⟨_, _, List.mem_singleton.mp he⟩
    cases au with
    | claimDue limit =>
      intro e he
      simp only [Auto.run] at he
      split at he
      · obtain ⟨j, _, rfl⟩ := List.mem_map.mp he
        exact ⟨j, _, rfl⟩
      · cases he
    | markDelivered id => exact mark id .delivered
    | markFailed id => exact mark id .failed
  cases o with
  | auto _ _ => exact run _ _
  | autoLost => exact run _ _
  | autoFault => exact fun e he => by cases he

/-- A task keeps its input and what it has done. -/
lemma Steps.past_keep {S S' : Sys} {ls t input a} (s : Steps st S ls S') (inv : Sys.Inv st S)
    (h : ∃ task, S.tasks t = some task ∧ task.input = input ∧ a ∈ task.loc.past) :
    ∃ task, S'.tasks t = some task ∧ task.input = input ∧ a ∈ task.loc.past := by
  refine s.keep
    (P := fun S => ∃ task, S.tasks t = some task ∧ task.input = input ∧ a ∈ task.loc.past) inv
    (fun {S lb S'} _ s h => ?_) h
  obtain ⟨task, ht, hi, ha⟩ := h
  cases s with
  | @spawn u input free wf =>
    have hu : t ≠ u := fun e => by simp [e, free] at ht
    exact ⟨task, by simpa [Sys.set, hu] using ht, hi, ha⟩
  | @act u input o k l r es seqs hm s fr =>
    by_cases hu : t = u
    · subst hu
      cases ht.symm.trans hm
      exact ⟨⟨_, some (k r), l.after ⟨o, r, es⟩⟩, by simp [Sys.set], hi, mem_past_after ha⟩
    · exact ⟨task, by simpa [Sys.set, hu] using ht, hi, ha⟩
  | @cancel u input p l hm =>
    by_cases hu : t = u
    · subst hu
      cases ht.symm.trans hm
      exact ⟨⟨_, none, { past := l.past }⟩, by simp [Sys.set], hi, ha⟩
    · exact ⟨task, by simpa [Sys.set, hu] using ht, hi, ha⟩

/-- What a task goes on to ask it could ask before. -/
lemma Steps.mayAsk {S S' : Sys} {ls t task task' p' o} (s : Steps st S ls S') (inv : Sys.Inv st S)
    (h : S.tasks t = some task) (h' : S'.tasks t = some task') (hp' : task'.rest = some p')
    (may : p'.MayAsk o) : ∃ p, task.rest = some p ∧ p.MayAsk o := by
  have kept : ∃ task₁, S'.tasks t = some task₁ ∧
      ∀ p', task₁.rest = some p' → p'.MayAsk o → ∃ p, task.rest = some p ∧ p.MayAsk o := by
    refine s.keep (P := fun S => ∃ task₁, S.tasks t = some task₁ ∧
      ∀ p', task₁.rest = some p' → p'.MayAsk o → ∃ p, task.rest = some p ∧ p.MayAsk o) inv
      (fun {S lb S'} _ s h => ?_) ⟨task, h, fun p' e m => ⟨p', e, m⟩⟩
    obtain ⟨task₁, ht, may⟩ := h
    cases s with
    | @spawn u input free wf =>
      have hu : t ≠ u := fun e => by simp [e, free] at ht
      exact ⟨task₁, by simpa [Sys.set, hu] using ht, may⟩
    | @act u input o' k l r es seqs hm _ _ =>
      by_cases hu : t = u
      · subst hu
        cases ht.symm.trans hm
        refine ⟨⟨input, some (k r), l.after ⟨o', r, es⟩⟩, by simp [Sys.set], fun p' e m => ?_⟩
        cases e
        exact may _ rfl (.inr ⟨r, m⟩)
      · exact ⟨task₁, by simpa [Sys.set, hu] using ht, may⟩
    | @cancel u input p l hm =>
      by_cases hu : t = u
      · subst hu
        exact ⟨⟨input, none, { past := l.past }⟩, by simp [Sys.set], fun _ e => nomatch e⟩
      · exact ⟨task₁, by simpa [Sys.set, hu] using ht, may⟩
  obtain ⟨task₁, h₁, may'⟩ := kept
  cases h₁.symm.trans h'
  exact may' p' hp' may

/-- An earlier action of a task is in the past of a later one. -/
lemma Run.past_of_earlier {ls S pre mid post t input input' l l' a a'} (r : Run st ls S)
    (e : ls = (pre ++ .act t input l a :: mid) ++ .act t input' l' a' :: post) :
    input' = input ∧ a ∈ l'.past := by
  obtain ⟨S₁, S₂, r₁, s₁, _⟩ := r.at e
  obtain ⟨S₃, S₄, r₃, s₃, s₄⟩ := r₁.at rfl
  obtain ⟨_, _, _, _, _, h'⟩ := s₃.act_inv
  have done : ∃ task, S₄.tasks t = some task ∧ task.input = input ∧ a ∈ task.loc.past :=
    ⟨_, h', rfl, List.mem_append_right _ (List.mem_singleton_self a)⟩
  obtain ⟨task, ht, hi, ha⟩ := s₄.past_keep (r₃.inv.step s₃) done
  obtain ⟨_, _, h, _⟩ := s₁.act_inv
  cases ht.symm.trans h
  exact ⟨hi, ha⟩

/-- Two places of one list are the same, or one comes before the other. -/
lemma places {α : Type} {ls pre post pre' post' : List α} {x x' : α} (e : ls = pre ++ x :: post)
    (e' : ls = pre' ++ x' :: post') :
    (pre = pre' ∧ x = x') ∨ (∃ mid, pre' = pre ++ x :: mid) ∨ ∃ mid, pre = pre' ++ x' :: mid := by
  obtain ⟨as, h, h'⟩ | ⟨bs, h, h'⟩ := List.append_eq_append_iff.mp (e.symm.trans e')
  · cases as with
    | nil =>
      simp only [List.append_nil] at h
      simp only [List.nil_append, List.cons.injEq] at h'
      exact .inl ⟨h.symm, h'.1⟩
    | cons a as =>
      simp only [List.cons_append, List.cons.injEq] at h'
      exact .inr (.inl ⟨as, by rw [h, h'.1]⟩)
  · cases bs with
    | nil =>
      simp only [List.append_nil] at h
      simp only [List.nil_append, List.cons.injEq] at h'
      exact .inl ⟨h, h'.1.symm⟩
    | cons b bs =>
      simp only [List.cons_append, List.cons.injEq] at h'
      exact .inr (.inr ⟨bs, by rw [h, h'.1]⟩)

end WebLoginRelay
