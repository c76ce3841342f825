import WebLoginRelay.Properties.Workers
import WebLoginRelay.System.Attempts

/-!
# What a single worker makes of a job

One worker claims batches of jobs and tries each job of a batch once. What has become of a job is a function of
the outcomes of its own attempts, whatever they are and whichever jobs it shared its batches with: it is
delivered by the first attempt that succeeds, it has failed when eight have failed, and it is pending before.
-/

namespace WebLoginRelay
open Text Txn

variable {st : AppState} {S S' : Sys} {lb : Label} {ls : List Label}

/-- The status after attempts with these outcomes. -/
def verdict (outcomes : List Bool) : JobStatus :=
  if true ∈ outcomes then .delivered else if 8 ≤ outcomes.length then .failed else .pending

/-- A call of `tick` has claimed the batch, and done the actions since. -/
def Batch (S : Sys) (t : Nat) (jobs : List DeliveryJob) (acts : List Act) : Prop :=
  ∃ p l es, S.tasks t = some ⟨.tick, some p, l⟩ ∧
    l.past = ⟨.auto (.claimDue 10), Except.ok jobs, es⟩ :: acts

/-- The `k`th attempt of the job has been made, with this outcome of `deliver`. -/
def Tried (st : AppState) (S : Sys) (id k : Nat) (b : Bool) : Prop :=
  ∃ t jobs acts, Batch S t jobs acts ∧ ∃ job, (job, b) ∈ tried st jobs acts ∧ job.id = id ∧ job.attempts = k

/-- The job has been claimed for its `k`th attempt, which is under way or has not begun. -/
def Waits (st : AppState) (S : Sys) (id k : Nat) : Prop :=
  ∃ t jobs acts, Batch S t jobs acts ∧
    ∃ job ∈ jobs, job ∉ (tried st jobs acts).map Prod.fst ∧ job.id = id ∧ job.attempts = k

/-- A tick acts only while no other one is under way, and is not cancelled; its statements on pooled connections
are answered. -/
def OneWorker (S : Sys) : Label → Prop
  | .act t .tick _ a => (∀ u task p, u ≠ t → S.tasks u = some task → task.input = .tick →
      task.rest = some p → ∃ r, p = .ret r) ∧ (a.op.IsAuto → ¬ a.Fails)
  | .cancel t => ∀ task, S.tasks t = some task → task.input ≠ .tick
  | _ => True

/-- What has become of a job, with the attempts that were made and the one that waits. -/
structure Account (tried : Nat → Bool → Prop) (waits : Nat → Prop) (row : DeliveryJob) (outcomes : List Bool) :
    Prop where
  /-- The outcomes are those of the attempts. -/
  outcome : ∀ k b, tried k b ↔ ∃ i, k = i + 1 ∧ outcomes[i]? = some b
  /-- Only the last one may have succeeded. -/
  failures : ∀ b ∈ outcomes.dropLast, b = false
  status : row.status = verdict outcomes
  bound : row.attempts ≤ 8
  /-- The attempts that were made are counted, and one that waits. -/
  attempts : (row.attempts = outcomes.length ∧ ∀ k, ¬ waits k) ∨
    (row.attempts = outcomes.length + 1 ∧ row.status = .pending ∧ waits row.attempts)

namespace Account
variable {T T' : Nat → Bool → Prop} {W W' : Nat → Prop} {row row' : DeliveryJob} {outcomes : List Bool}

/-- A job is pending while fewer than eight attempts have failed and none has succeeded. -/
lemma verdict_pending : verdict outcomes = .pending ↔ (∀ b ∈ outcomes, b = false) ∧ outcomes.length < 8 := by
  unfold verdict
  split
  · rename_i some
    refine ⟨nofun, fun h => ?_⟩
    exact absurd (h.1 true some) (by decide)
  · rename_i none
    have all : ∀ b ∈ outcomes, b = false := fun b hb => by
      cases b
      · rfl
      · exact absurd hb none
    split
    · rename_i many
      exact ⟨nofun, fun h => absurd h.2 (Nat.not_lt_of_le many)⟩
    · rename_i few
      exact ⟨fun _ => ⟨all, Nat.lt_of_not_le few⟩, fun _ => rfl⟩

/-- A new job. -/
lemma fresh (none : ∀ k b, ¬ T k b) (idle : ∀ k, ¬ W k) (pending : row.status = .pending) (zero : row.attempts = 0) :
    Account T W row [] where
  outcome k b := ⟨fun h => absurd h (none k b), nofun⟩
  failures := nofun
  status := pending
  bound := by omega
  attempts := .inl ⟨zero, idle⟩

/-- An account is of the attempts that were made and of the one that waits. -/
lemma congr (acc : Account T W row outcomes) (ht : ∀ k b, T' k b ↔ T k b) (hw : ∀ k, W' k ↔ W k) :
    Account T' W' row outcomes where
  outcome k b := (ht k b).trans (acc.outcome k b)
  failures := acc.failures
  status := acc.status
  bound := acc.bound
  attempts := acc.attempts.imp (fun h => ⟨h.1, fun k w => h.2 k ((hw k).mp w)⟩) fun h =>
    ⟨h.1, h.2.1, (hw _).mpr h.2.2⟩

/-- A pending job that nobody holds has a further attempt. -/
lemma claim (acc : Account T W row outcomes) (idle : ∀ k, ¬ W k) (pending : row.status = .pending)
    (status : row'.status = .pending) (attempts : row'.attempts = row.attempts + 1) (w : W' row'.attempts) :
    Account T W' row' outcomes where
  outcome := acc.outcome
  failures := acc.failures
  status := status.trans (pending.symm.trans acc.status)
  bound := by
    have few := (verdict_pending.mp (acc.status.symm.trans pending)).2
    obtain ⟨e, -⟩ | ⟨-, -, held⟩ := acc.attempts
    · omega
    · exact absurd held (idle _)
  attempts := by
    obtain ⟨e, -⟩ | ⟨-, -, held⟩ := acc.attempts
    · exact .inr ⟨by omega, status, w⟩
    · exact absurd held (idle _)

/-- The attempt that waits is made. -/
lemma attempt (acc : Account T W row outcomes) {k : Nat} (w : W k) {b : Bool}
    (ht : ∀ k b', T' k b' ↔ T k b' ∨ (k = row.attempts ∧ b' = b)) (idle : ∀ k, ¬ W' k)
    (attempts : row'.attempts = row.attempts) (status : row'.status = verdict (outcomes ++ [b])) :
    Account T' W' row' (outcomes ++ [b]) := by
  obtain ⟨-, none⟩ | ⟨count, pending, -⟩ := acc.attempts
  · exact absurd w (none k)
  have failed := (verdict_pending.mp (acc.status.symm.trans pending)).1
  refine ⟨fun k b' => ?_, fun b' hb => ?_, status, attempts ▸ acc.bound, .inl ⟨?_, idle⟩⟩
  · rw [ht, acc.outcome]
    constructor
    · rintro (⟨i, rfl, e⟩ | ⟨rfl, rfl⟩)
      · refine ⟨i, rfl, ?_⟩
        rw [List.getElem?_append_left (List.getElem?_eq_some_iff.mp e).1]
        exact e
      · exact ⟨outcomes.length, count, List.getElem?_concat_length⟩
    · rintro ⟨i, rfl, e⟩
      by_cases old : i < outcomes.length
      · rw [List.getElem?_append_left old] at e
        exact .inl ⟨i, rfl, e⟩
      · have last : i = outcomes.length := by
          have bound := (List.getElem?_eq_some_iff.mp e).1
          rw [List.length_append, List.length_singleton] at bound
          omega
        subst last
        rw [List.getElem?_concat_length] at e
        exact .inr ⟨count.symm, (Option.some.inj e).symm⟩
  · rw [List.dropLast_concat] at hb
    exact failed b' hb
  · rw [attempts, count, List.length_append, List.length_singleton]

/-- The status after the attempt that waits. -/
lemma verdict_concat (acc : Account T W row outcomes) {k : Nat} (w : W k) (b : Bool) :
    verdict (outcomes ++ [b]) = if b then .delivered else if 8 ≤ row.attempts then .failed else .pending := by
  obtain ⟨-, none⟩ | ⟨count, pending, -⟩ := acc.attempts
  · exact absurd w (none k)
  have failed := (verdict_pending.mp (acc.status.symm.trans pending)).1
  have none : true ∉ outcomes := fun h => absurd (failed true h) (by decide)
  cases b with
  | true => exact if_pos (List.mem_append_right _ (List.mem_singleton_self true))
  | false =>
    have still : true ∉ outcomes ++ [false] := by simpa using none
    rw [verdict, if_neg still, List.length_append, List.length_singleton, count]
    rfl

end Account

/-! ## Batches -/

/-- A tick claims jobs and delivers them. -/
lemma prog_tick (st : AppState) : ∃ k, Input.prog st .tick = .req (.auto (.claimDue 10)) k ∧
    (∀ jobs, k (Except.ok jobs) = (deliverAll st jobs).run >>= fun r => pure (Result.ticked r)) ∧
    ∀ e, ∃ r, k (Except.error e) = .ret r :=
  ⟨_, rfl, fun _ => rfl, fun _ => ⟨_, rfl⟩⟩

/-- What is left of a tick that has claimed its batch is what is left of its loop. -/
lemma Run.tick_left (r : Run st ls S) {t : Nat} {p : Prog Op Op.Resp Result} {l : Local}
    {jobs : List DeliveryJob} {acts : List Act} {es : List Entry} (h : S.tasks t = some ⟨.tick, some p, l⟩)
    (past : l.past = ⟨.auto (.claimDue 10), Except.ok jobs, es⟩ :: acts) :
    ∃ q, (deliverAll st jobs).left acts = (q, []) ∧ p = q >>= fun r => pure (Result.ticked r) := by
  obtain ⟨k, prog, after, -⟩ := prog_tick st
  have fed := r.fed h
  rw [prog, past, feed_act, after] at fed
  cases left : (deliverAll st jobs).left acts with
  | mk q rest =>
    cases q with
    | ret r' =>
      rw [Prog.feed_bind_ret left, Prog.feed_pure] at fed
      obtain ⟨rfl, rfl⟩ := Prod.mk.inj fed
      exact ⟨_, rfl, rfl⟩
    | req o k =>
      rw [Prog.feed_bind_req left] at fed
      obtain ⟨rfl, rfl⟩ := Prod.mk.inj fed
      exact ⟨_, rfl, rfl⟩

/-- A tick acts first to claim its batch. -/
lemma Run.tick_first (r : Run st ls S) {t : Nat} {o : Op} {k : o.Resp → Prog Op Op.Resp Result} {l : Local}
    (h : S.tasks t = some ⟨.tick, some (.req o k), l⟩) :
    (l.past = [] ∧ o = .auto (.claimDue 10)) ∨
      ∃ jobs es acts, l.past = ⟨.auto (.claimDue 10), Except.ok jobs, es⟩ :: acts := by
  obtain ⟨k', prog, -, fails⟩ := prog_tick st
  have fed := r.fed h
  rw [prog] at fed
  cases past : l.past with
  | nil =>
    rw [past, Prog.feed_nil] at fed
    obtain ⟨e, -⟩ := Prod.mk.inj fed
    exact .inl ⟨rfl, (Prog.req.inj e).1.symm⟩
  | cons a acts =>
    by_cases same : a.op = .auto (.claimDue 10)
    · obtain ⟨op, answer, es⟩ := a
      obtain rfl : op = .auto (.claimDue 10) := same
      cases answer with
      | ok jobs => exact .inr ⟨jobs, es, acts, rfl⟩
      | error e =>
        obtain ⟨r', ret⟩ := fails e
        rw [past, feed_act, ret, Prog.feed_ret] at fed
        nomatch fed
    · rw [past, Prog.feed_other same] at fed
      nomatch (Prod.mk.inj fed).2

/-- The step is none of the tick's. -/
lemma Step.batch_other (s : Step st S lb S') (c : OneWorker S lb) {u : Nat}
    (other : ∀ l a, lb ≠ .act u .tick l a) (jobs : List DeliveryJob) (acts : List Act) :
    Batch S' u jobs acts ↔ Batch S u jobs acts := by
  have same (e : S'.tasks u = S.tasks u) : Batch S' u jobs acts ↔ Batch S u jobs acts := by
    unfold Batch
    rw [e]
  cases s with
  | @spawn t input free wf =>
    by_cases hu : u = t
    · subst hu
      constructor
      · rintro ⟨p, l, es, h, past⟩
        simp only [Sys.set, Function.update_self, Option.some.injEq, Task.mk.injEq] at h
        obtain ⟨-, -, rfl⟩ := h
        cases past
      · rintro ⟨p, l, es, h, past⟩
        cases free.symm.trans h
    · exact same (by simp [Sys.set, hu])
  | @cancel t input p l hm =>
    by_cases hu : u = t
    · subst hu
      constructor
      · rintro ⟨p, l, es, h, past⟩
        simp [Sys.set] at h
      · rintro ⟨p, l, es, h, past⟩
        exact absurd rfl (c _ h)
    · exact same (by simp [Sys.set, hu])
  | @act t input o k l x es seqs hm o' fr =>
    by_cases hu : u = t
    · subst hu
      constructor
      · rintro ⟨p, l', es', h, past⟩
        simp only [Sys.set, Function.update_self, Option.some.injEq, Task.mk.injEq] at h
        obtain ⟨rfl, -, -⟩ := h
        exact absurd rfl (other _ _)
      · rintro ⟨p, l', es', h, past⟩
        cases hm.symm.trans h
        exact absurd rfl (other _ _)
    · exact same (by simp [Sys.set, hu])

/-- The batch of a tick is the one it has claimed. -/
lemma batch_iff {t : Nat} {p : Prog Op Op.Resp Result} {l : Local} {jobs : List DeliveryJob} {acts : List Act}
    {es : List Entry} (h : S.tasks t = some ⟨.tick, some p, l⟩)
    (past : l.past = ⟨.auto (.claimDue 10), Except.ok jobs, es⟩ :: acts) (jobs' : List DeliveryJob)
    (acts' : List Act) : Batch S t jobs' acts' ↔ jobs' = jobs ∧ acts' = acts := by
  constructor
  · rintro ⟨p', l', es', h', past'⟩
    cases h.symm.trans h'
    rw [past] at past'
    cases past'
    exact ⟨rfl, rfl⟩
  · rintro ⟨rfl, rfl⟩
    exact ⟨p, l, es, h, past⟩

/-- What holds of the batches: each is claimed without repetitions, and the statements after it are answered. -/
structure Batched (S : Sys) : Prop where
  apart : ∀ {t jobs acts}, Batch S t jobs acts → jobs.Pairwise fun i j => i.id ≠ j.id
  answered : ∀ {t jobs acts}, Batch S t jobs acts → ∀ a ∈ acts, a.op.IsAuto → ¬ a.Fails

/-- A tick that is not under way has no job that waits. -/
lemma Batched.ended (h : Batched S) (r : Run st ls S) {t : Nat} {jobs : List DeliveryJob} {acts : List Act}
    (batch : Batch S t jobs acts) (idle : ∀ task p, S.tasks t = some task → task.rest = some p → ∃ r, p = .ret r) :
    (tried st jobs acts).map Prod.fst = jobs := by
  have answered := h.answered batch
  obtain ⟨p, l, es, task, past⟩ := batch
  obtain ⟨q, left, e⟩ := r.tick_left task past
  obtain ⟨r', rfl⟩ := idle _ _ task rfl
  cases q with
  | ret r' => exact tried_done left answered
  | req o k => nomatch e

/-! ## Steps -/

/-- A step of a tick has made the attempts `new`, after the attempts `old` of its batch. -/
structure Turn (st : AppState) (S S' : Sys) (jobs : List DeliveryJob) (old new : List (DeliveryJob × Bool)) :
    Prop where
  order : (old ++ new).map Prod.fst <+: jobs
  apart : jobs.Pairwise fun i j => i.id ≠ j.id
  tried : ∀ id k b, Tried st S' id k b ↔
    Tried st S id k b ∨ ∃ job, (job, b) ∈ new ∧ job.id = id ∧ job.attempts = k
  waits : ∀ id k, Waits st S' id k ↔
    ∃ job ∈ jobs, job ∉ (old ++ new).map Prod.fst ∧ job.id = id ∧ job.attempts = k

namespace Turn
variable {jobs : List DeliveryJob} {old new : List (DeliveryJob × Bool)} {job : DeliveryJob} {b : Bool}

/-- What a step makes of the batches is what it makes of the attempts. -/
lemma of_batches {t : Nat} {acts : List Act}
    (others : ∀ u, u ≠ t → ∀ j a, Batch S' u j a ↔ Batch S u j a)
    (ended : ∀ u, u ≠ t → ∀ j a, Batch S u j a → (WebLoginRelay.tried st j a).map Prod.fst = j)
    (before : ∀ e, (∃ j a, Batch S t j a ∧ e ∈ WebLoginRelay.tried st j a) ↔ e ∈ old)
    (after : ∀ j a, Batch S' t j a ↔ j = jobs ∧ a = acts)
    (e : WebLoginRelay.tried st jobs acts = old ++ new) (apart : jobs.Pairwise fun i j => i.id ≠ j.id) :
    Turn st S S' jobs old new where
  order := e ▸ tried_starts
  apart := apart
  tried id k b := by
    constructor
    · rintro ⟨u, j, a, batch, job, mem, rest⟩
      by_cases hu : u = t
      · subst hu
        obtain ⟨rfl, rfl⟩ := (after j a).mp batch
        rw [e] at mem
        obtain mem | mem := List.mem_append.mp mem
        · obtain ⟨j, a, batch, mem⟩ := (before _).mpr mem
          exact .inl ⟨u, j, a, batch, job, mem, rest⟩
        · exact .inr ⟨job, mem, rest⟩
      · exact .inl ⟨u, j, a, (others u hu j a).mp batch, job, mem, rest⟩
    · rintro (⟨u, j, a, batch, job, mem, rest⟩ | ⟨job, mem, rest⟩)
      · by_cases hu : u = t
        · subst hu
          have mem := (before _).mp ⟨j, a, batch, mem⟩
          exact ⟨u, jobs, acts, (after _ _).mpr ⟨rfl, rfl⟩, job, e ▸ List.mem_append_left _ mem, rest⟩
        · exact ⟨u, j, a, (others u hu j a).mpr batch, job, mem, rest⟩
      · exact ⟨t, jobs, acts, (after _ _).mpr ⟨rfl, rfl⟩, job, e ▸ List.mem_append_right _ mem, rest⟩
  waits id k := by
    constructor
    · rintro ⟨u, j, a, batch, job, mem, rest⟩
      by_cases hu : u = t
      · subst hu
        obtain ⟨rfl, rfl⟩ := (after j a).mp batch
        exact ⟨job, mem, e ▸ rest⟩
      · have all := ended u hu j a ((others u hu j a).mp batch)
        rw [all] at rest
        exact absurd mem rest.1
    · rintro ⟨job, mem, rest⟩
      exact ⟨t, jobs, acts, (after _ _).mpr ⟨rfl, rfl⟩, job, mem, e.symm ▸ rest⟩

/-- Jobs that are tried are of the batch. -/
lemma mem_of_new (h : Turn st S S' jobs old new) (mem : (job, b) ∈ new) : job ∈ jobs :=
  h.order.subset (List.mem_map.mpr ⟨_, List.mem_append_right _ mem, rfl⟩)

/-- The jobs of the batch have different ids. -/
lemma eq_of_id (h : Turn st S S' jobs old new) {i j : DeliveryJob} (hi : i ∈ jobs) (hj : j ∈ jobs)
    (e : i.id = j.id) : i = j := by
  by_contra ne
  obtain ⟨n, hn, rfl⟩ := List.mem_iff_getElem.mp hi
  obtain ⟨m, hm, rfl⟩ := List.mem_iff_getElem.mp hj
  obtain less | same | more := Nat.lt_trichotomy n m
  · exact List.pairwise_iff_getElem.mp h.apart n m hn hm less e
  · subst same
    exact ne rfl
  · exact List.pairwise_iff_getElem.mp h.apart m n hm hn more e.symm

/-- No job is tried twice. -/
lemma nodup (h : Turn st S S' jobs old new) : ((old ++ new).map Prod.fst).Nodup := by
  have apart : jobs.Nodup := h.apart.imp fun ne e => ne (congrArg DeliveryJob.id e)
  exact h.order.sublist.nodup apart

/-- They have not been tried before in this tick. -/
lemma not_old (h : Turn st S S' jobs old new) (mem : (job, b) ∈ new) : job ∉ old.map Prod.fst := by
  have nodup := h.nodup
  rw [List.map_append] at nodup
  intro again
  exact List.disjoint_of_nodup_append nodup again (List.mem_map.mpr ⟨_, mem, rfl⟩)

/-- A job that is tried has one outcome. -/
lemma outcome_unique (h : Turn st S S' jobs old new) {b' : Bool} (mem : (job, b) ∈ new) (mem' : (job, b') ∈ new) :
    b' = b := by
  have nodup := h.nodup
  rw [List.map_append] at nodup
  have inj := List.inj_on_of_nodup_map (List.Nodup.of_append_right nodup)
  exact congrArg Prod.snd (inj mem' mem rfl)

/-- A job that is not tried has the same attempts. -/
lemma untouched (h : Turn st S S' jobs old new) {W : Nat → Prop} {row : DeliveryJob} {outcomes : List Bool}
    (acc : Account (Tried st S row.id) W row outcomes) (none : ∀ job b, (job, b) ∈ new → job.id ≠ row.id)
    (waits : ∀ k, W k ↔ ∃ job ∈ jobs, job ∉ old.map Prod.fst ∧ job.id = row.id ∧ job.attempts = k) :
    Account (Tried st S' row.id) (Waits st S' row.id) row outcomes := by
  apply acc.congr
  · intro k b
    rw [h.tried]
    constructor
    · rintro (old | ⟨job, mem, id_eq, -⟩)
      · exact old
      · exact absurd id_eq (none job b mem)
    · exact .inl
  · intro k
    rw [h.waits, waits]
    constructor
    · rintro ⟨job, mem, untried, rest⟩
      rw [List.map_append, List.mem_append, not_or] at untried
      exact ⟨job, mem, untried.1, rest⟩
    · rintro ⟨job, mem, untried, id_eq, rest⟩
      refine ⟨job, mem, ?_, id_eq, rest⟩
      rw [List.map_append, List.mem_append, not_or]
      refine ⟨untried, fun again => ?_⟩
      obtain ⟨⟨_, b⟩, tried, rfl⟩ := List.mem_map.mp again
      exact none _ b tried id_eq

/-- A job that is tried has one more attempt, and none that waits. -/
lemma attempted (h : Turn st S S' jobs old new) {W : Nat → Prop} {row row' : DeliveryJob} {outcomes : List Bool}
    (acc : Account (Tried st S row.id) W row outcomes) (mem : (job, b) ∈ new) (id_eq : job.id = row.id)
    (waits : ∀ k, W k ↔ k = job.attempts) (attempts : row'.attempts = row.attempts)
    (status : row'.status = verdict (outcomes ++ [b])) :
    Account (Tried st S' row.id) (Waits st S' row.id) row' (outcomes ++ [b]) := by
  have count : row.attempts = job.attempts := by
    obtain ⟨-, none⟩ | ⟨-, -, w⟩ := acc.attempts
    · exact absurd ((waits _).mpr rfl) (none _)
    · exact (waits _).mp w
  apply acc.attempt ((waits _).mpr rfl) ?_ ?_ attempts status
  · intro k b'
    rw [h.tried, count]
    constructor
    · rintro (before | ⟨job', mem', id_eq', rfl⟩)
      · exact .inl before
      · obtain rfl := h.eq_of_id (h.mem_of_new mem') (h.mem_of_new mem) (id_eq'.trans id_eq.symm)
        exact .inr ⟨rfl, h.outcome_unique mem mem'⟩
    · rintro (before | ⟨rfl, rfl⟩)
      · exact .inl before
      · exact .inr ⟨job, mem, id_eq, rfl⟩
  · intro k w
    obtain ⟨job', hj', untried, id_eq', -⟩ := (h.waits _ _).mp w
    obtain rfl := h.eq_of_id hj' (h.mem_of_new mem) (id_eq'.trans id_eq.symm)
    exact untried (List.mem_map.mpr ⟨_, List.mem_append_right _ mem, rfl⟩)

end Turn

/-- The account of every job. -/
structure Ledger (st : AppState) (S : Sys) : Prop where
  batched : Batched S
  account : ∀ row ∈ S.db.jobs, ∃ outcomes,
    Account (Tried st S row.id) (Waits st S row.id) row outcomes

/-- The jobs of a batch were claimed. -/
lemma Batch.claimed {t : Nat} {jobs : List DeliveryJob} {acts : List Act} (h : Batch S t jobs acts)
    {job : DeliveryJob} (hj : job ∈ jobs) : Claimed (S.pastOf t) job := by
  obtain ⟨p, l, es, task, past⟩ := h
  refine ⟨jobs, es, ?_, hj⟩
  rw [Sys.pastOf_of_task task]
  exact past ▸ List.mem_cons_self

/-- The attempts of a job are of claims of it. -/
lemma Tried.claimed {id k : Nat} {b : Bool} (h : Tried st S id k b) : ∃ t job, Claimed (S.pastOf t) job ∧ job.id = id := by
  obtain ⟨t, jobs, acts, batch, job, mem, id_eq, -⟩ := h
  exact ⟨t, job, batch.claimed (tried_starts.subset (List.mem_map.mpr ⟨_, mem, rfl⟩)), id_eq⟩

/-- An attempt that waits is of a job that was claimed. -/
lemma Waits.claimed {id k : Nat} (h : Waits st S id k) : ∃ t job, Claimed (S.pastOf t) job ∧ job.id = id := by
  obtain ⟨t, jobs, acts, batch, job, mem, -, id_eq, -⟩ := h
  exact ⟨t, job, batch.claimed mem, id_eq⟩

/-- A job that a step adds has not been claimed. -/
lemma Step.unclaimed (r : Run st ls S) (s : Step st S lb S') {row : DeliveryJob}
    (fresh : ∀ j ∈ S.db.jobs, j.id ≠ row.id) : ¬ ∃ t job, Claimed (S'.pastOf t) job ∧ job.id = row.id := by
  rintro ⟨t, job, claimed, id_eq⟩
  obtain claimed | ⟨input, l, es, jobs, rfl, hj⟩ := s.claimed_cases claimed
  · obtain ⟨j, hj, e, -⟩ := r.leases.row t job claimed
    exact fresh j hj (e.trans id_eq)
  · obtain ⟨-, -, j, hm, -, e, -⟩ := s.claimed_rows job hj
    exact fresh j hm (e.symm.trans id_eq)

/-- The account of a job that a step adds. -/
lemma Step.opens (r : Run st ls S) (s : Step st S lb S') {row : DeliveryJob} (pending : row.status = .pending)
    (zero : row.attempts = 0) (fresh : ∀ j ∈ S.db.jobs, j.id ≠ row.id) :
    Account (Tried st S' row.id) (Waits st S' row.id) row [] := by
  have unclaimed := s.unclaimed r fresh
  exact .fresh (fun k b h => unclaimed h.claimed) (fun k h => unclaimed h.claimed) pending zero

namespace Ledger

/-- Steps that are none of a tick's leave the accounts. -/
lemma other (h : Ledger st S) (r : Run st ls S) (s : Step st S lb S') (c : OneWorker S lb)
    (other : ∀ t l a, lb ≠ .act t .tick l a) : Ledger st S' := by
  have same (t : Nat) (jobs : List DeliveryJob) (acts : List Act) : Batch S' t jobs acts ↔ Batch S t jobs acts :=
    s.batch_other c (other t) jobs acts
  refine ⟨⟨fun b => h.batched.apart ((same _ _ _).mp b), fun b => h.batched.answered ((same _ _ _).mp b)⟩, ?_⟩
  intro row' hr'
  obtain ⟨row, hr, m⟩ | ⟨pending, zero, fresh⟩ := (s.job_moves r).2 row' hr'
  · cases m with
    | stay =>
      obtain ⟨outcomes, acc⟩ := h.account row' hr
      refine ⟨outcomes, acc.congr (fun k b => ?_) fun k => ?_⟩
      · simp only [Tried, same]
      · simp only [Waits, same]
    | claim e _ _ _ => exact absurd e (other _ _ _)
    | mark e _ => exact absurd e (other _ _ _)
  · exact ⟨[], s.opens r pending zero fresh⟩

variable {t : Nat} {l : Local} {a : Act}

/-- The other ticks have ended. -/
lemma ended (h : Ledger st S) (r : Run st ls S) (c : OneWorker S (.act t .tick l a)) (u : Nat) (hu : u ≠ t)
    (jobs : List DeliveryJob) (acts : List Act) (b : Batch S u jobs acts) :
    (tried st jobs acts).map Prod.fst = jobs := by
  apply h.batched.ended r b
  intro task p ht rest
  obtain ⟨p', l, es, task', -⟩ := b
  cases ht.symm.trans task'
  exact c.1 u _ p hu task' rfl rest

/-- A tick claims its batch. -/
lemma claim {jobs : List DeliveryJob} {es : List Entry} (h : Ledger st S) (r : Run st ls S)
    (s : Step st S (.act t .tick l ⟨.auto (.claimDue 10), Except.ok jobs, es⟩) S')
    (c : OneWorker S (.act t .tick l ⟨.auto (.claimDue 10), Except.ok jobs, es⟩)) (first : l.past = []) :
    Ledger st S' := by
  obtain ⟨k, _, task, _, _, task'⟩ := s.act_inv
  have others (u : Nat) (hu : u ≠ t) (j : List DeliveryJob) (a : List Act) : Batch S' u j a ↔ Batch S u j a :=
    s.batch_other c (by rintro l a ⟨⟩; exact hu rfl) j a
  have past : (l.after ⟨.auto (.claimDue 10), Except.ok jobs, es⟩).past =
      ⟨.auto (.claimDue 10), Except.ok jobs, es⟩ :: [] := by
    show l.past ++ _ = _
    rw [first]
    rfl
  have after := batch_iff task' past
  have none (j : List DeliveryJob) (acts : List Act) : ¬ Batch S t j acts := by
    rintro ⟨p, l', es', h', past'⟩
    cases task.symm.trans h'
    nomatch first.symm.trans past'
  have apart := s.claimed_once
  have turn : Turn st S S' jobs [] (tried st jobs []) :=
    .of_batches others (h.ended r c) (fun e => ⟨fun ⟨j, a, b, _⟩ => absurd b (none j a), fun h => nomatch h⟩) after rfl apart
  -- nothing waited before
  have idle (id k : Nat) : ¬ Waits st S id k := by
    rintro ⟨u, j, a, batch, job, mem, untried, -⟩
    by_cases hu : u = t
    · exact none j a (hu ▸ batch)
    · rw [h.ended r c u hu j a batch] at untried
      exact untried mem
  refine ⟨⟨fun {u j a} b => ?_, fun {u j a} b => ?_⟩, fun row' hr' => ?_⟩
  · by_cases hu : u = t
    · subst hu
      obtain ⟨rfl, rfl⟩ := (after j a).mp b
      exact apart
    · exact h.batched.apart ((others u hu j a).mp b)
  · by_cases hu : u = t
    · subst hu
      obtain ⟨rfl, rfl⟩ := (after j a).mp b
      exact fun _ h => nomatch h
    · exact h.batched.answered ((others u hu j a).mp b)
  · obtain ⟨row, hr, m⟩ | ⟨pending, zero, fresh⟩ := (s.job_moves r).2 row' hr'
    swap
    · exact ⟨[], s.opens r pending zero fresh⟩
    obtain ⟨outcomes, acc⟩ := h.account row hr
    have id_eq := m.id_eq
    rw [id_eq]
    by_cases claimed : ∃ job ∈ jobs, job.id = row.id
    · -- the job is claimed, and may be tried at once
      obtain ⟨job, hj, e⟩ := claimed
      obtain ⟨mem, pending', row₀, hr₀, pending, e', count⟩ := s.claimed_rows job hj
      obtain rfl := job_eq_of_id hr hr₀ (e.symm.trans e')
      obtain rfl := job_eq_of_id hr' mem (id_eq.trans e.symm)
      have acc' : Account (Tried st S row.id) (· = row'.attempts) row' outcomes :=
        acc.claim (idle row.id) pending pending' count rfl
      by_cases quick : ∃ b, (row', b) ∈ tried st jobs []
      · obtain ⟨b, mem⟩ := quick
        obtain ⟨rfl, few⟩ : b = false ∧ row'.attempts < 8 := tried_nil _ mem
        refine ⟨outcomes ++ [false], ?_⟩
        rw [← id_eq] at acc' ⊢
        apply turn.attempted acc' mem rfl (fun k => Iff.rfl) rfl
        rw [pending', acc'.verdict_concat rfl, if_neg Bool.false_ne_true, if_neg (Nat.not_le_of_lt few)]
      · refine ⟨outcomes, ?_⟩
        rw [← id_eq] at acc' ⊢
        apply turn.untouched acc'
        · intro job b tried same
          obtain rfl := turn.eq_of_id (turn.mem_of_new tried) hj same
          exact quick ⟨b, tried⟩
        · intro k
          constructor
          · rintro rfl
            exact ⟨row', hj, List.not_mem_nil, rfl, rfl⟩
          · rintro ⟨job, mem, -, same, rfl⟩
            rw [turn.eq_of_id mem hj same]
    · have same : row' = row := by
        cases m with
        | stay => rfl
        | claim e _ _ told =>
          cases e
          exact absurd ⟨_, told jobs rfl, by simp⟩ claimed
        | mark e marks =>
          cases e
          obtain ⟨-, e⟩ | ⟨-, e⟩ := marks
          · nomatch e
          · nomatch e
      subst same
      refine ⟨outcomes, turn.untouched acc (fun job b mem e => claimed ⟨job, turn.mem_of_new mem, e⟩) fun k => ?_⟩
      exact ⟨fun w => absurd w (idle _ _), fun ⟨job, mem, _, e, _⟩ => absurd ⟨job, mem, e⟩ claimed⟩

/-- A tick goes on with its batch. -/
lemma work {jobs : List DeliveryJob} {acts : List Act} (h : Ledger st S) (r : Run st ls S)
    (s : Step st S (.act t .tick l a) S') (c : OneWorker S (.act t .tick l a)) (batch : Batch S t jobs acts) :
    Ledger st S' := by
  obtain ⟨k, _, task, _, _, task'⟩ := s.act_inv
  have others (u : Nat) (hu : u ≠ t) (j : List DeliveryJob) (a : List Act) : Batch S' u j a ↔ Batch S u j a :=
    s.batch_other c (by rintro l a ⟨⟩; exact hu rfl) j a
  have apart := h.batched.apart batch
  have answered := h.batched.answered batch
  obtain ⟨p, l', es, ht, past⟩ := batch
  cases task.symm.trans ht
  have before := batch_iff task past
  have past' : (l.after a).past = ⟨.auto (.claimDue 10), Except.ok jobs, es⟩ :: (acts ++ [a]) := by
    show l.past ++ _ = _
    rw [past]
    rfl
  have after := batch_iff task' past'
  obtain ⟨q, left, e⟩ := r.tick_left task past
  obtain ⟨k', rfl⟩ : ∃ k', q = .req a.op k' := by
    cases q with
    | ret _ => nomatch e
    | req o k' =>
      obtain ⟨rfl, -⟩ := Prog.req.inj e
      exact ⟨k', rfl⟩
  obtain ⟨new, e, adds⟩ := tried_step left c.2
  have turn : Turn st S S' jobs (tried st jobs acts) new := by
    refine .of_batches others (h.ended r c) (fun e => ⟨fun ⟨j, a, b, mem⟩ => ?_, fun mem => ?_⟩) after e apart
    · obtain ⟨rfl, rfl⟩ := (before j a).mp b
      exact mem
    · exact ⟨jobs, acts, (before _ _).mpr ⟨rfl, rfl⟩, mem⟩
  -- what waited before is of this batch
  have waits (id k : Nat) : Waits st S id k ↔
      ∃ job ∈ jobs, job ∉ (tried st jobs acts).map Prod.fst ∧ job.id = id ∧ job.attempts = k := by
    constructor
    · rintro ⟨u, j, a, batch, job, mem, untried, rest⟩
      by_cases hu : u = t
      · subst hu
        obtain ⟨rfl, rfl⟩ := (before j a).mp batch
        exact ⟨job, mem, untried, rest⟩
      · rw [h.ended r c u hu j a batch] at untried
        exact absurd mem untried
    · rintro ⟨job, mem, rest⟩
      exact ⟨t, jobs, acts, (before _ _).mpr ⟨rfl, rfl⟩, job, mem, rest⟩
  refine ⟨⟨fun {u j b} batch => ?_, fun {u j b} batch => ?_⟩, fun row' hr' => ?_⟩
  · by_cases hu : u = t
    · subst hu
      obtain ⟨rfl, rfl⟩ := (after j b).mp batch
      exact apart
    · exact h.batched.apart ((others u hu j b).mp batch)
  · by_cases hu : u = t
    · subst hu
      obtain ⟨rfl, rfl⟩ := (after j b).mp batch
      intro x hx
      obtain hx | hx := List.mem_append.mp hx
      · exact answered x hx
      · cases List.mem_singleton.mp hx
        exact c.2
    · exact h.batched.answered ((others u hu j b).mp batch)
  · obtain ⟨row, hr, m⟩ | ⟨pending, zero, fresh⟩ := (s.job_moves r).2 row' hr'
    swap
    · exact ⟨[], s.opens r pending zero fresh⟩
    obtain ⟨outcomes, acc⟩ := h.account row hr
    have id_eq := m.id_eq
    rw [id_eq]
    by_cases made : ∃ job b, (job, b) ∈ new ∧ job.id = row.id
    · obtain ⟨job, b, mem, same⟩ := made
      have held (k : Nat) : Waits st S row.id k ↔ k = job.attempts := by
        rw [waits]
        constructor
        · rintro ⟨job', hj', -, same', rfl⟩
          rw [turn.eq_of_id hj' (turn.mem_of_new mem) (same'.trans same.symm)]
        · rintro rfl
          exact ⟨job, turn.mem_of_new mem, turn.not_old mem, same, rfl⟩
      have still : row'.attempts = row.attempts := by
        cases m with
        | stay => rfl
        | claim e _ _ _ => cases e; exact absurd rfl adds.not_claim
        | mark _ _ => rfl
      obtain ⟨count, pending⟩ : row.attempts = job.attempts ∧ row.status = .pending := by
        obtain ⟨-, none⟩ | ⟨-, pending, w⟩ := acc.attempts
        · exact absurd ((held _).mpr rfl) (none _)
        · exact ⟨(held _).mp w, pending⟩
      refine ⟨outcomes ++ [b], turn.attempted acc mem same held still ?_⟩
      rw [acc.verdict_concat ((held _).mpr rfl), count]
      -- an attempt that is left for another one leaves the row
      have left (again : Again (job, b)) (unmarked : ∀ status, ¬ a.MarksAs row.id status) :
          row'.status = if b then .delivered else if 8 ≤ job.attempts then .failed else .pending := by
        obtain ⟨failed, few⟩ : b = false ∧ job.attempts < 8 := again
        rw [failed, if_neg Bool.false_ne_true, if_neg (Nat.not_le_of_lt few)]
        cases m with
        | stay => exact pending
        | claim e _ _ _ => cases e; exact absurd rfl adds.not_claim
        | mark e marks => cases e; exact absurd marks (unmarked _)
      cases adds with
      | quiet quiet again => exact left (again _ mem) fun _ marks => quiet marks.isAuto
      | @record job' b' rest marks many again =>
        obtain e | mem' := List.mem_cons.mp mem
        · cases e
          rw [s.marked marks (c.2 marks.isAuto) row' hr' (id_eq.trans same.symm)]
          cases b with
          | true => rfl
          | false => rw [if_neg Bool.false_ne_true, if_pos (many rfl)]; rfl
        · apply left (again _ mem')
          intro status marks'
          -- the job that is recorded is another one
          have first : job' ∈ jobs := turn.mem_of_new List.mem_cons_self
          obtain rfl := turn.eq_of_id first (turn.mem_of_new mem) ((marks.id_eq marks').trans same.symm)
          have nodup := turn.nodup
          rw [List.map_append, List.map_cons] at nodup
          have apart := List.nodup_cons.mp (List.Nodup.of_append_right nodup)
          exact apart.1 (List.mem_map.mpr ⟨_, mem', rfl⟩)
    · have same : row' = row := by
        cases m with
        | stay => rfl
        | claim e _ _ _ => cases e; exact absurd rfl adds.not_claim
        | mark e marks =>
          cases e
          cases adds with
          | quiet quiet _ => exact absurd marks.isAuto quiet
          | record marks' _ _ => exact absurd ⟨_, _, List.mem_cons_self, marks'.id_eq marks⟩ made
      subst same
      exact ⟨outcomes, turn.untouched acc (fun job b mem e => made ⟨job, b, mem, e⟩) fun k => waits _ k⟩

/-- No step of a single worker breaks the accounts. -/
lemma step (h : Ledger st S) (r : Run st ls S) (s : Step st S lb S') (c : OneWorker S lb) : Ledger st S' := by
  by_cases tick : ∃ t l a, lb = .act t .tick l a
  · obtain ⟨t, l, a, rfl⟩ := tick
    obtain ⟨k, _, task, _, _, _⟩ := s.act_inv
    obtain ⟨first, e⟩ | ⟨jobs, es, acts, past⟩ := r.tick_first task
    · obtain ⟨op, answer, es⟩ := a
      obtain rfl : op = .auto (.claimDue 10) := e
      cases answer with
      | ok jobs => exact h.claim r s c first
      | error e => exact absurd trivial (c.2 trivial)
    · exact h.work r s c ⟨_, _, es, task, past⟩
  · exact h.other r s c fun t l a e => tick ⟨t, l, a, e⟩

end Ledger

/-- The accounts of a run. -/
lemma RunWhen.ledger (r : RunWhen st OneWorker ls S) : Ledger st S := by
  induction r with
  | init =>
    refine ⟨⟨?_, ?_⟩, fun row hr => absurd hr Table.not_mem_empty⟩
    · rintro _ _ _ ⟨_, _, _, h, _⟩
      nomatch h
    · rintro _ _ _ ⟨_, _, _, h, _⟩
      nomatch h
  | step r c s ih => exact ih.step r.run s c

/-! ## Continuations -/

namespace Account
variable {T T' : Nat → Bool → Prop} {W W' : Nat → Prop} {row row' : DeliveryJob} {outcomes outcomes' : List Bool}

/-- There are at most eight attempts. -/
lemma length_le (acc : Account T W row outcomes) : outcomes.length ≤ 8 := by
  have bound := acc.bound
  obtain ⟨e, -⟩ | ⟨e, -⟩ := acc.attempts
  · omega
  · omega

/-- A job that is settled has its attempts counted. -/
lemma settled (acc : Account T W row outcomes) (final : row.status ≠ .pending) :
    row.attempts = outcomes.length := by
  obtain ⟨e, -⟩ | ⟨-, pending, -⟩ := acc.attempts
  · exact e
  · exact absurd pending final

/-- No attempt follows one that succeeds, or the eighth. -/
lemma closed {more : List Bool} (acc : Account T W row outcomes) (acc' : Account T' W' row' (outcomes ++ more))
    (final : row.status ≠ .pending) : more = [] := by
  by_contra some
  apply final
  rw [acc.status, verdict_pending]
  constructor
  · intro b hb
    apply acc'.failures
    rw [List.dropLast_append_of_ne_nil some]
    exact List.mem_append_left _ hb
  · have bound := acc'.length_le
    have more := List.length_pos_iff.mpr some
    rw [List.length_append] at bound
    omega

end Account

end WebLoginRelay
