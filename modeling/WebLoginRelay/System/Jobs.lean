import WebLoginRelay.System.Tables

/-!
# Jobs step by step

What one step of a run does to each row of `delivery_jobs`, and to what each call has claimed and marked.
A row is claimed by a tick, marked by a tick, or left; new rows are pending and have no attempts.
-/

namespace WebLoginRelay
open Text Txn

variable {st : AppState} {S S' : Sys} {lb : Label} {ls : List Label}

/-! ## Journals -/

/-- An entry of a transaction: it updates no job, and queues jobs that wait for their first attempt. -/
def Entry.IsQueue : Entry → Prop
  | .jobInsert row => row.status = .pending ∧ row.attempts = 0
  | .jobUpdate _ _ => False
  | _ => True

/-- The entries of statements are such. -/
lemma Query.run_isQueue {view : Db} {seqs : Seqs} {now : DateTime} (q : Query) :
    ∀ e ∈ (q.run view seqs now).log, e.IsQueue := by
  intro e he
  cases q with
  | insertSession new =>
    simp only [run] at he
    split at he
    · cases he
    · exact List.mem_singleton.mp he ▸ trivial
  | selectSessions filter =>
    obtain ⟨_, _, rfl⟩ := List.mem_map.mp he
    trivial
  | casUpdate id version set =>
    simp only [run] at he
    split at he
    · cases he
    · split at he
      · exact List.mem_singleton.mp he ▸ trivial
      · cases he
  | insertReplay key expiresAt =>
    simp only [run] at he
    split at he
    · cases he
    · exact List.mem_singleton.mp he ▸ trivial
  | upsertGrant new =>
    simp only [run] at he
    split at he
    · exact List.mem_singleton.mp he ▸ trivial
    · split at he
      · cases he
      · exact List.mem_singleton.mp he ▸ trivial
  | selectGrants domain subjectHash =>
    obtain ⟨_, _, rfl⟩ := List.mem_map.mp he
    trivial
  | markRevoked id =>
    simp only [run] at he
    split at he
    · cases he
    · exact List.mem_singleton.mp he ▸ trivial
  | enqueue new =>
    simp only [run] at he
    split at he
    · cases he
    · split at he
      · cases he
      · exact List.mem_singleton.mp he ▸ ⟨rfl, rfl⟩

/-- What statements keep holds of every journal. -/
theorem Run.journals {P : List Entry → Prop} (nil : P [])
    (exec : ∀ db seqs now (q : Query) l, P l → P (l ++ (q.run (journal.replay db l) seqs now).log))
    (r : Run st ls S) (t : Nat) : P (S.journalOf t) := by
  induction r generalizing t with
  | init => exact nil
  | @step ls S lb S' r s ih =>
    cases s with
    | @spawn u input free wf =>
      rw [journalOf_set]
      by_cases hu : t = u
      · rw [hu, Function.update_self]
        exact nil
      · rw [Function.update_of_ne hu]
        exact ih t
    | @cancel u input p l hm =>
      rw [journalOf_set]
      by_cases hu : t = u
      · rw [hu, Function.update_self]
        exact nil
      · rw [Function.update_of_ne hu]
        exact ih t
    | @act u input o k l x es seqs hm o' fr =>
      rw [journalOf_set]
      by_cases hu : t = u
      · rw [hu, Function.update_self]
        have old : P l.log := by
          have h := ih u
          rwa [Sys.journalOf, hm] at h
        cases o' with
        | @exec q now e =>
          have new := exec S.db S.seqs now q l.log old
          generalize q.run (journal.replay S.db l.log) S.seqs now = out at new ⊢
          obtain ⟨resp, log, seqs'⟩ := out
          cases resp with
          | ok _ => exact new
          | error _ => exact nil
        | begin answer =>
          cases answer with
          | ok _ => exact nil
          | error _ => exact old
        | execFault => exact nil
        | commit _ _ => exact nil
        | commitFault => exact nil
        | rollback => exact nil
        | drop => exact nil
        | _ => exact old
      · rw [Function.update_of_ne hu]
        exact ih t

/-- The journals of transactions queue jobs and update none. -/
lemma Run.isQueue (r : Run st ls S) (t : Nat) : ∀ e ∈ S.journalOf t, e.IsQueue :=
  r.journals (P := fun l => ∀ e ∈ l, e.IsQueue) (fun _ h => nomatch h)
    (fun _ _ _ q _ h e he => (List.mem_append.mp he).elim (h e) (q.run_isQueue e)) t

/-- Such entries leave the jobs that are there. -/
lemma jobs_of_queue {db : Db} {es : List Entry} (h : ∀ e ∈ es, e.IsQueue) :
    (∀ j ∈ db.jobs, j ∈ (journal.replay db es).jobs) ∧
    ∀ j' ∈ (journal.replay db es).jobs, j' ∈ db.jobs ∨ (j'.status = .pending ∧ j'.attempts = 0) := by
  induction es generalizing db with
  | nil => exact ⟨fun j hj => hj, fun j hj => .inl hj⟩
  | cons e es ih =>
    obtain ⟨stay, origin⟩ := @ih (e.apply db) fun e he => h e (List.mem_cons_of_mem _ he)
    have first := h e List.mem_cons_self
    have one : (∀ j ∈ db.jobs, j ∈ (e.apply db).jobs) ∧
        ∀ j' ∈ (e.apply db).jobs, j' ∈ db.jobs ∨ (j'.status = .pending ∧ j'.attempts = 0) := by
      cases e with
      | jobInsert row =>
        refine ⟨fun j hj => Table.mem_insert.mpr (.inl hj), fun j' hj' => ?_⟩
        obtain hj' | ⟨rfl, _⟩ := Table.mem_insert.mp hj'
        · exact .inl hj'
        · exact .inr first
      | jobUpdate row set => exact first.elim
      | _ => exact ⟨fun j hj => hj, fun j hj => .inl hj⟩
    refine ⟨fun j hj => stay j (one.1 j hj), fun j' hj' => ?_⟩
    obtain hj' | new := origin j' hj'
    · exact one.2 j' hj'
    · exact .inr new

/-- The jobs after some of them were updated. -/
lemma mem_replay_jobUpdate {db : Db} {set : JobSet} {jobs : List DeliveryJob} {j' : DeliveryJob}
    (nd : jobs.Pairwise fun i j => i.id ≠ j.id) :
    j' ∈ (journal.replay db (jobs.map (.jobUpdate · set))).jobs ↔
      ∃ j ∈ db.jobs, ((∃ i ∈ jobs, i.id = j.id) ∧ j' = set.on j) ∨
        ((∀ i ∈ jobs, i.id ≠ j.id) ∧ j' = j) := by
  induction jobs generalizing db with
  | nil => exact ⟨fun h => ⟨j', h, .inr ⟨nofun, rfl⟩⟩, fun ⟨j, hj, h⟩ => by
      obtain ⟨⟨_, h, _⟩, _⟩ | ⟨_, rfl⟩ := h
      · nomatch h
      · exact hj⟩
  | cons i jobs ih =>
    obtain ⟨ne, nd⟩ := List.pairwise_cons.mp nd
    refine (@ih (db.updateJob i.id set) nd).trans ⟨?_, ?_⟩
    · rintro ⟨_, hk, h⟩
      obtain ⟨j, hj, rfl⟩ := (Db.mem_updateJob ..).mp hk
      refine ⟨j, hj, ?_⟩
      by_cases e : j.id = i.id
      · obtain ⟨⟨k, hk, e'⟩, _⟩ | ⟨_, rfl⟩ := h
        · rw [JobSet.at_id] at e'
          exact absurd (e.symm.trans e'.symm) (ne k hk)
        · exact .inl ⟨⟨i, List.mem_cons_self, e.symm⟩, if_pos e⟩
      · rw [JobSet.at_ne e] at h
        obtain ⟨⟨k, hk, e'⟩, rfl⟩ | ⟨none, rfl⟩ := h
        · exact .inl ⟨⟨k, List.mem_cons_of_mem _ hk, e'⟩, rfl⟩
        · refine .inr ⟨fun k hk => ?_, rfl⟩
          obtain rfl | hk := List.mem_cons.mp hk
          · exact Ne.symm e
          · exact none k hk
    · rintro ⟨j, hj, h⟩
      refine ⟨set.at i.id j, (Db.mem_updateJob ..).mpr ⟨j, hj, rfl⟩, ?_⟩
      by_cases e : j.id = i.id
      · obtain ⟨_, rfl⟩ | ⟨none, _⟩ := h
        · refine .inr ⟨fun k hk e' => ne k hk ?_, (if_pos e).symm⟩
          rw [JobSet.at_id] at e'
          exact e.symm.trans e'.symm
        · exact absurd e.symm (none i List.mem_cons_self)
      · rw [JobSet.at_ne e]
        obtain ⟨⟨k, hk, e'⟩, rfl⟩ | ⟨none, rfl⟩ := h
        · obtain rfl | hk := List.mem_cons.mp hk
          · exact absurd e'.symm e
          · exact .inl ⟨⟨k, hk, e'⟩, rfl⟩
        · exact .inr ⟨fun k hk => none k (List.mem_cons_of_mem _ hk), rfl⟩

/-! ## Steps -/

/-- The action marks the job with this status. -/
def Act.MarksAs (a : Act) (id : Nat) (status : JobStatus) : Prop :=
  (status = .delivered ∧ a.op = .auto (.markDelivered id)) ∨
    (status = .failed ∧ a.op = .auto (.markFailed id))

/-- What a step does to a job: it leaves it, claims it while it is pending, or marks it. -/
inductive JobMove (lb : Label) (j : DeliveryJob) : DeliveryJob → Prop where
  | stay : JobMove lb j j
  | claim {t l} {answer : Except DbError (List DeliveryJob)} {es retryAt}
    (e : lb = .act t .tick l ⟨.auto (.claimDue 10), answer, es⟩) (pending : j.status = .pending)
    (wrote : .jobUpdate j (.claim retryAt) ∈ es)
    (told : ∀ jobs, answer = .ok jobs → (JobSet.claim retryAt).on j ∈ jobs) :
    JobMove lb j ((JobSet.claim retryAt).on j)
  | mark {t l a status} (e : lb = .act t .tick l a) (m : a.MarksAs j.id status) :
    JobMove lb j ((JobSet.mark status).on j)

/-- Jobs with one id are one job. -/
lemma job_eq_of_id {db : Db} {i j : DeliveryJob} (hi : i ∈ db.jobs) (hj : j ∈ db.jobs) (e : i.id = j.id) :
    i = j :=
  Table.eq_of_clash (fun _ _ => DeliveryJob.Clash.symm) hi hj (.inl e)

/-- The jobs after a statement of a tick. -/
lemma OpStep.job_moves {seqs seqs' : Seqs} {db : Db} {t : Nat} {l : Local} {au : Auto} {answer es}
    (limit : ∀ n, au = .claimDue n → n = 10)
    (o : OpStep db seqs l ⟨.auto au, answer, es⟩ seqs') :
    (∀ j ∈ db.jobs, ∃ j' ∈ (journal.replay db es).jobs,
      JobMove (.act t .tick l ⟨.auto au, answer, es⟩) j j') ∧
    ∀ j' ∈ (journal.replay db es).jobs, ∃ j ∈ db.jobs,
      JobMove (.act t .tick l ⟨.auto au, answer, es⟩) j j' := by
  -- what the statement wrote, with its answer
  have wrote : es = [] ∨ ∃ now locked, es = (au.run db seqs now locked).log ∧
      ∀ r, answer = .ok r → ∃ r', (au.run db seqs now locked).resp = .ok r' ∧ au.Reorders r' r := by
    cases o with
    | @auto _ now locked r' r run perm =>
      exact .inr ⟨now, locked, rfl, fun x e => by cases e; exact ⟨r', run, perm⟩⟩
    | @autoLost _ now locked => exact .inr ⟨now, locked, rfl, fun _ e => nomatch e⟩
    | autoFault => exact .inl rfl
  clear o
  obtain rfl | ⟨now, locked, rfl, told⟩ := wrote
  · exact ⟨fun j hj => ⟨j, hj, .stay⟩, fun j hj => ⟨j, hj, .stay⟩⟩
  have marked (id : Nat) (status : JobStatus) (m : Act.MarksAs ⟨.auto au, answer, (au.run db seqs now locked).log⟩ id status)
      (e : (au.run db seqs now locked).log = (db.markJob seqs id status).log) :
      (∀ j ∈ db.jobs, ∃ j' ∈ (journal.replay db (au.run db seqs now locked).log).jobs,
        JobMove (.act t .tick l ⟨.auto au, answer, (au.run db seqs now locked).log⟩) j j') ∧
      ∀ j' ∈ (journal.replay db (au.run db seqs now locked).log).jobs, ∃ j ∈ db.jobs,
        JobMove (.act t .tick l ⟨.auto au, answer, (au.run db seqs now locked).log⟩) j j' := by
    generalize (au.run db seqs now locked).log = es at m e ⊢
    subst e
    unfold Db.markJob at m ⊢
    split at m
    · exact ⟨fun j hj => ⟨j, hj, .stay⟩, fun j hj => ⟨j, hj, .stay⟩⟩
    · rename_i row found
      have id_eq : row.id = id := by simpa using List.find?_some found
      have move (j : DeliveryJob) : JobMove (.act t .tick l ⟨.auto au, answer, [.jobUpdate row (.mark status)]⟩) j
          ((JobSet.mark status).at row.id j) := by
        by_cases e : j.id = row.id
        · rw [JobSet.at, if_pos e]
          exact .mark rfl (by rw [e, id_eq]; exact m)
        · rw [JobSet.at_ne e]
          exact .stay
      refine ⟨fun j hj => ⟨_, (Db.mem_updateJob ..).mpr ⟨j, hj, rfl⟩, move j⟩, fun j' hj' => ?_⟩
      obtain ⟨j, hj, rfl⟩ := (Db.mem_updateJob ..).mp hj'
      exact ⟨j, hj, move j⟩
  cases au with
  | markDelivered id => exact marked id .delivered (.inl ⟨rfl, rfl⟩) rfl
  | markFailed id => exact marked id .failed (.inr ⟨rfl, rfl⟩) rfl
  | claimDue n =>
    obtain rfl := limit n rfl
    clear marked
    simp only [Auto.run] at told ⊢
    split at told
    · rename_i few
      rw [if_pos few]
      have due {j : DeliveryJob} (h : j ∈ db.dueJobs now 10 locked) : j.status = .pending := by
        have d := (Db.mem_of_mem_dueJobs h).2
        simp only [DeliveryJob.isDue, Bool.and_eq_true, beq_iff_eq] at d
        exact d.1
      -- the updated rows are the claimed ones
      have move {j : DeliveryJob} (hj : j ∈ db.jobs) (c : ∃ i ∈ db.dueJobs now 10 locked, i.id = j.id) :
          JobMove (.act t .tick l ⟨.auto (.claimDue 10), answer,
            (db.dueJobs now 10 locked).map (.jobUpdate · (.claim (now + retryInterval)))⟩) j
            ((JobSet.claim (now + retryInterval)).on j) := by
        obtain ⟨i, hi, e⟩ := c
        obtain rfl := job_eq_of_id (Db.mem_of_mem_dueJobs hi).1 hj e
        refine .claim rfl (due hi) (List.mem_map_of_mem hi) fun jobs e => ?_
        obtain ⟨r', run, perm⟩ := told jobs e
        cases run
        exact (List.Perm.mem_iff perm).mp (List.mem_map_of_mem hi)
      refine ⟨fun j hj => ?_, fun j' hj' => ?_⟩
      · by_cases c : ∃ i ∈ db.dueJobs now 10 locked, i.id = j.id
        · exact ⟨_, (mem_replay_jobUpdate Db.dueJobs_ids).mpr ⟨j, hj, .inl ⟨c, rfl⟩⟩, move hj c⟩
        · refine ⟨j, (mem_replay_jobUpdate Db.dueJobs_ids).mpr ⟨j, hj, .inr ⟨fun i hi e => c ⟨i, hi, e⟩, rfl⟩⟩,
            .stay⟩
      · obtain ⟨j, hj, ⟨c, rfl⟩ | ⟨_, rfl⟩⟩ := (mem_replay_jobUpdate Db.dueJobs_ids).mp hj'
        · exact ⟨j, hj, move hj c⟩
        · exact ⟨j', hj, .stay⟩
    · rename_i many
      rw [if_neg many]
      exact ⟨fun j hj => ⟨j, hj, .stay⟩, fun j hj => ⟨j, hj, .stay⟩⟩

/-- Every job stays, and moves as the step says; the others are new. -/
theorem Step.job_moves (r : Run st ls S) (s : Step st S lb S') :
    (∀ j ∈ S.db.jobs, ∃ j' ∈ S'.db.jobs, JobMove lb j j') ∧
    ∀ j' ∈ S'.db.jobs, (∃ j ∈ S.db.jobs, JobMove lb j j') ∨
      (j'.status = .pending ∧ j'.attempts = 0 ∧ ∀ j ∈ S.db.jobs, j.id ≠ j'.id) := by
  have same (e : S'.db = S.db) : (∀ j ∈ S.db.jobs, ∃ j' ∈ S'.db.jobs, JobMove lb j j') ∧
      ∀ j' ∈ S'.db.jobs, (∃ j ∈ S.db.jobs, JobMove lb j j') ∨
        (j'.status = .pending ∧ j'.attempts = 0 ∧ ∀ j ∈ S.db.jobs, j.id ≠ j'.id) := by
    rw [e]
    exact ⟨fun j hj => ⟨j, hj, .stay⟩, fun j hj => .inl ⟨j, hj, .stay⟩⟩
  cases s with
  | spawn => exact same rfl
  | cancel => exact same rfl
  | @act t input o k l x es seqs hm step fr =>
    have ok := (r.inv.act hm step).1
    cases o with
    | commit =>
      have queue : ∀ e ∈ es, e.IsQueue := by
        have h := r.isQueue t
        rw [Sys.journalOf, hm] at h
        cases step with
        | commit _ _ => exact h
        | commitFault => exact fun _ h => by cases h
      obtain ⟨stay, origin⟩ := @jobs_of_queue S.db es queue
      refine ⟨fun j hj => ⟨j, stay j hj, .stay⟩, fun j' hj' => ?_⟩
      by_cases old : j' ∈ S.db.jobs
      · exact .inl ⟨j', old, .stay⟩
      · obtain ⟨pending, fresh⟩ := (origin j' hj').resolve_left old
        refine .inr ⟨pending, fresh, fun j hj e => old ?_⟩
        rwa [job_eq_of_id hj' (stay j hj) e.symm]
    | auto au =>
      obtain rfl := ok.of_auto
      have limit (n : Nat) (e : au = .claimDue n) : n = 10 := by
        subst e
        exact ok.2
      obtain ⟨forth, back⟩ := step.job_moves (t := t) limit
      exact ⟨forth, fun j' hj' => .inl (back j' hj')⟩
    | _ => exact same rfl

namespace JobMove
variable {j j' : DeliveryJob}

/-- A job keeps its id. -/
lemma id_eq (m : JobMove lb j j') : j'.id = j.id := by
  cases m <;> simp

/-- The attempts of a job are only counted up. -/
lemma attempts_le (m : JobMove lb j j') : j.attempts ≤ j'.attempts := by
  cases m with
  | stay => exact Nat.le_refl _
  | claim _ _ _ _ => exact Nat.le_succ _
  | mark _ _ => exact Nat.le_refl _

end JobMove

/-- What a claim yields was pending, and is in the table with one more attempt. -/
lemma Step.claimed_rows {t input l n} {jobs : List DeliveryJob} {es}
    (s : Step st S (.act t input l ⟨.auto (.claimDue n), Except.ok jobs, es⟩) S') :
    ∀ job ∈ jobs, job ∈ S'.db.jobs ∧ job.status = .pending ∧
      ∃ j ∈ S.db.jobs, j.status = .pending ∧ job.id = j.id ∧ job.attempts = j.attempts + 1 := by
  obtain ⟨_, _, _, o, e, _⟩ := s.act_inv
  rw [e]
  intro job hj
  cases o with
  | @auto _ now locked r _ run perm =>
    simp only [Auto.run, Act.writes] at run ⊢
    split at run
    · rename_i few
      rw [if_pos few]
      cases run
      obtain ⟨j, hd, rfl⟩ := List.mem_map.mp ((List.Perm.mem_iff perm).mpr hj)
      obtain ⟨mem, due⟩ := Db.mem_of_mem_dueJobs hd
      simp only [DeliveryJob.isDue, Bool.and_eq_true, beq_iff_eq] at due
      exact ⟨(mem_replay_jobUpdate Db.dueJobs_ids).mpr ⟨j, mem, .inl ⟨⟨j, hd, rfl⟩, rfl⟩⟩,
        due.1, j, mem, due.1, rfl, rfl⟩
    · cases run

/-! ## What the calls have done -/

/-- What a task has done. -/
def Sys.pastOf (S : Sys) (t : Nat) : List Act := (S.tasks t).elim [] (·.loc.past)

/-- The past of a task that is there. -/
lemma Sys.pastOf_of_task {t : Nat} {task : Task} (h : S.tasks t = some task) :
    S.pastOf t = task.loc.past := by
  rw [pastOf, h]
  rfl

/-- A step adds its action to what its task has done. -/
lemma Step.pastOf (s : Step st S lb S') (t : Nat) : S'.pastOf t = S.pastOf t ∨
    ∃ input l a, lb = .act t input l a ∧ l.past = S.pastOf t ∧ S'.pastOf t = S.pastOf t ++ [a] := by
  cases s with
  | @spawn u input free wf =>
    by_cases hu : t = u
    · subst hu
      exact .inl (by simp [Sys.pastOf, Sys.set, free])
    · exact .inl (by simp [Sys.pastOf, Sys.set, hu])
  | @cancel u input p l hm =>
    by_cases hu : t = u
    · subst hu
      exact .inl (by simp [Sys.pastOf, Sys.set, hm])
    · exact .inl (by simp [Sys.pastOf, Sys.set, hu])
  | @act u input o k l x es seqs hm _ fr =>
    by_cases hu : t = u
    · subst hu
      exact .inr ⟨input, l, _, rfl, by simp [Sys.pastOf, hm], by simp [Sys.pastOf, Sys.set, hm, Local.after]⟩
    · exact .inl (by simp [Sys.pastOf, Sys.set, hu])

/-- What a task has claimed after a step it had claimed before, or the step is its claim. -/
lemma Step.claimed_cases (s : Step st S lb S') {t : Nat} {job : DeliveryJob}
    (h : Claimed (S'.pastOf t) job) : Claimed (S.pastOf t) job ∨
      ∃ input l es, ∃ jobs : List DeliveryJob,
        lb = .act t input l ⟨.auto (.claimDue 10), Except.ok jobs, es⟩ ∧ job ∈ jobs := by
  obtain e | ⟨input, l, a, rfl, _, e⟩ := s.pastOf t
  · exact .inl (e ▸ h)
  · obtain ⟨jobs, es, mem, hj⟩ := h
    rw [e] at mem
    obtain mem | mem := List.mem_append.mp mem
    · exact .inl ⟨jobs, es, mem, hj⟩
    · cases List.mem_singleton.mp mem
      exact .inr ⟨input, l, es, jobs, rfl, hj⟩

/-- What a task has claimed stays claimed. -/
lemma Step.past_mono (s : Step st S lb S') {t : Nat} {a : Act} (h : a ∈ S.pastOf t) : a ∈ S'.pastOf t := by
  obtain e | ⟨_, _, _, _, _, e⟩ := s.pastOf t
  · rwa [e]
  · rw [e]
    exact List.mem_append_left _ h

/-- Who holds which attempt of a job: every claim is of a row that has since had as many attempts or more,
and two calls never hold the same attempt. -/
structure Leases (S : Sys) : Prop where
  row : ∀ t job, Claimed (S.pastOf t) job →
    ∃ row ∈ S.db.jobs, row.id = job.id ∧ job.attempts ≤ row.attempts
  unique : ∀ t t' job job', Claimed (S.pastOf t) job → Claimed (S.pastOf t') job' → job.id = job'.id →
    job.attempts = job'.attempts → t = t'

/-- A claim is of a later attempt than every claim before it. -/
lemma Leases.later {t t' input l es} {jobs : List DeliveryJob} (h : Leases S)
    (s : Step st S (.act t input l ⟨.auto (.claimDue 10), Except.ok jobs, es⟩) S') {job job' : DeliveryJob}
    (hj : job ∈ jobs) (claimed : Claimed (S.pastOf t') job') (e : job.id = job'.id) :
    job'.attempts < job.attempts := by
  obtain ⟨_, _, j, hm, _, id_eq, attempts⟩ := s.claimed_rows job hj
  obtain ⟨row, hr, id_eq', le⟩ := h.row t' job' claimed
  obtain rfl := job_eq_of_id hm hr (id_eq.symm.trans (e.trans id_eq'.symm))
  omega

/-- No step breaks the leases. -/
theorem Run.leases (r : Run st ls S) : Leases S := by
  induction r with
  | init => exact ⟨fun t job ⟨_, _, h, _⟩ => (nomatch h), fun t t' job job' ⟨_, _, h, _⟩ => (nomatch h)⟩
  | @step ls S lb S' r s ih =>
    refine ⟨fun t job h => ?_, fun t t' job job' h h' e e' => ?_⟩
    · obtain h | ⟨input, l, es, jobs, rfl, hj⟩ := s.claimed_cases h
      · obtain ⟨row, hr, id_eq, le⟩ := ih.row t job h
        obtain ⟨row', hr', m⟩ := (s.job_moves r).1 row hr
        exact ⟨row', hr', m.id_eq.trans id_eq, le.trans m.attempts_le⟩
      · exact ⟨job, (s.claimed_rows job hj).1, rfl, Nat.le_refl _⟩
    · obtain h | ⟨input, l, es, jobs, rfl, hj⟩ := s.claimed_cases h
      · obtain h' | ⟨input, l, es, jobs, rfl, hj⟩ := s.claimed_cases h'
        · exact ih.unique t t' job job' h h' e e'
        · exact absurd e' (Nat.ne_of_lt (ih.later s hj h e.symm))
      · obtain h' | ⟨_, _, _, _, eq, _⟩ := s.claimed_cases h'
        · exact absurd e'.symm (Nat.ne_of_lt (ih.later s hj h' e))
        · cases eq
          rfl

end WebLoginRelay
