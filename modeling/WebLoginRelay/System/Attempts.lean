import WebLoginRelay.System.Jobs
import WebLoginRelay.System.Reached
import WebLoginRelay.Txn.Feed

/-!
# The attempts of a tick

A tick claims a batch of jobs and deals with them one after the other. Which of them it has dealt with, and
with what outcome of `deliver`, is a function of what it has done; each action adds to it the job it is the last
action of, and the jobs after it for which there is nothing to do.
-/

namespace WebLoginRelay
open Text Txn

variable {st : AppState} {α : Type}

/-- A statement on a pooled connection of its own. -/
def Op.IsAuto : Op → Prop
  | .auto _ => True
  | _ => False

/-- Every operation it may ask for is such. -/
def Relay.Only (P : Op → Prop) (x : Relay α) : Prop := x.run.Asks P

namespace Relay.Only
variable {β : Type} {P : Op → Prop} {x : Relay α} {f : α → Relay β}

/-- A sequence asks what its parts ask. -/
lemma bind (h : x.Only P) (h' : ∀ a, (f a).Only P) : (x >>= f).Only P := by
  rw [Only, ExceptT.run_bind]
  apply Prog.Asks.bind h
  rintro (e | a)
  · exact Prog.asks_pure _
  · exact h' a

/-- A result asks nothing. -/
lemma pure (a : α) : (Pure.pure a : Relay α).Only P := trivial

/-- A failure asks nothing. -/
lemma throw (e : RelayError) : (MonadExcept.throw e : Relay α).Only P := trivial

/-- A result without effects asks nothing. -/
lemma lift (r : Except RelayError α) : (liftResult r).Only P := trivial

/-- Only a result that succeeds goes on. -/
lemma lift_bind {r : Except RelayError α} (h : ∀ a, r = .ok a → (f a).Only P) : (liftResult r >>= f).Only P := by
  cases r with
  | ok a => exact h a rfl
  | error e => exact throw e

/-- A single operation. -/
lemma ask {o : Op} (h : P o) : (Relay.ask o).Only P := ⟨h, fun _ => trivial⟩

/-- An operation whose answer is read. -/
lemma asked {o : Op} {read : o.Resp → Except RelayError α} (h : P o) :
    (Relay.ask o >>= fun r => liftResult (read r)).Only P :=
  bind (ask h) fun _ => lift _

/-- A transaction begins, does what its body does, and is dropped. -/
lemma inTx (begins : P .begin) (ends : P .drop) (h : x.Only P) : (Relay.inTx x).Only P := by
  refine ⟨begins, ?_⟩
  rintro (e | now)
  · trivial
  · apply Prog.Asks.bind h
    intro r
    exact ⟨ends, fun _ => trivial⟩

end Relay.Only

/-- It runs no such statement. -/
abbrev Relay.NoAuto (x : Relay α) : Prop := x.Only fun o => ¬ o.IsAuto

open Relay in
/-- The success notice needs no statement. -/
lemma noAuto_sendSuccessResult (roomId sessionId nonce sub : String) :
    (sendSuccessResult st roomId sessionId nonce sub).NoAuto := by
  apply Only.bind (Only.ask (by exact id))
  intro sentAt
  apply Only.bind (Only.lift _)
  intro body
  exact Only.asked (by exact id)

open Relay in
/-- What follows an accepted assertion runs in a transaction. -/
lemma noAuto_afterAssertionAccepted (job : DeliveryJob) (payload : Bytes) :
    (afterAssertionAccepted st job payload).NoAuto := by
  apply Only.bind (Only.lift _)
  intro assertion
  apply Only.inTx (by exact id) (by exact id)
  apply Only.bind (Only.bind (Only.asked (by exact id)) fun _ => Only.lift _)
  intro session
  split
  · exact Only.pure _
  · split
    · exact Only.throw _
    · apply Only.bind (Only.lift _)
      intro roomId
      apply Only.bind (Only.lift _)
      intro nonce
      apply Only.bind (Only.bind (Only.asked (by exact id)) fun _ => Only.pure _)
      intro _
      apply Only.bind (Only.asked (by exact id))
      intro _
      exact noAuto_sendSuccessResult _ _ _ _

open Relay in
/-- An attempt itself makes no statement on a pooled connection. -/
lemma noAuto_deliver (job : DeliveryJob) : (deliver st job).NoAuto := by
  apply Only.bind (Only.lift _)
  intro payload
  apply Only.bind (Only.asked (by exact id))
  intro response
  split
  · exact Only.throw _
  · split
    · exact noAuto_afterAssertionAccepted job payload
    · exact Only.pure _

/-! ## The batch -/

/-- What is left of a program after the actions. -/
abbrev Relay.left (x : Relay α) (acts : List Act) : Prog Op Op.Resp (Except RelayError α) × List Act :=
  Prog.feed Act.op Act.resp x.run acts

/-- An answered operation is consumed. -/
lemma feed_act {o : Op} (k : o.Resp → Prog Op Op.Resp α) (answer : o.Resp) (es : List Entry) (rest : List Act) :
    Prog.feed Act.op Act.resp (.req o k) (⟨o, answer, es⟩ :: rest) = Prog.feed Act.op Act.resp (k answer) rest :=
  dif_pos rfl

/-- `deliver` succeeds for the job with these actions. -/
def succeeds (st : AppState) (job : DeliveryJob) (acts : List Act) : Bool :=
  match (deliver st job).left acts with
  | (.ret (.ok ()), _) => true
  | _ => false

/-- The jobs of the batch that a tick with these actions has dealt with, and the outcomes of `deliver`. -/
def tried (st : AppState) : List DeliveryJob → List Act → List (DeliveryJob × Bool)
  | [], _ => []
  | job :: jobs, acts =>
    match (deliverJob st job).left acts with
    | (.ret (.ok ()), rest) => (job, succeeds st job acts) :: tried st jobs rest
    | _ => []

/-- The status the outcome is recorded with. -/
def outcomeStatus : Bool → JobStatus
  | true => .delivered
  | false => .failed

/-- What `tick` does with the outcome of `deliver`. -/
def settle (job : DeliveryJob) : Except RelayError Unit → Prog Op Op.Resp (Except RelayError Unit)
  | .ok () => (markDelivered job.id).run
  | .error _ => if job.attempts ≥ 8 then (markFailed job.id).run else pure (.ok ())

/-- An attempt, and then the mark of its outcome. -/
lemma deliverJob_run (job : DeliveryJob) : (deliverJob st job).run = (deliver st job).run >>= settle job := by
  refine congrArg ((deliver st job).run >>= ·) (funext fun r => ?_)
  cases r <;> rfl

variable {job : DeliveryJob} {jobs : List DeliveryJob} {acts : List Act} {a : Act}

/-- A mark is a statement on a pooled connection. -/
lemma Act.MarksAs.isAuto {id : Nat} {status : JobStatus} (m : a.MarksAs id status) : a.op.IsAuto := by
  obtain ⟨_, e⟩ | ⟨_, e⟩ := m
  · rw [e]; trivial
  · rw [e]; trivial

/-- The outcome of a `deliver` that has returned. -/
lemma succeeds_of_left {r : Except RelayError Unit} {rest : List Act} (h : (deliver st job).left acts = (.ret r, rest)) :
    succeeds st job acts = r.toBool := by
  rw [succeeds, h]
  cases r <;> rfl

/-- The outcome is recorded with one statement, or not at all. -/
lemma settle_cases (job : DeliveryJob) (r : Except RelayError Unit) :
    (∃ au k, settle job r = .req (.auto au) k ∧ (∀ resp es, Act.MarksAs ⟨.auto au, resp, es⟩ job.id
        (outcomeStatus r.toBool)) ∧ (r.toBool = false → 8 ≤ job.attempts) ∧
        ∀ resp, ∃ r', k resp = .ret r' ∧ (r' = .ok () ∨ ∀ es, Act.Fails ⟨.auto au, resp, es⟩)) ∨
      (r.toBool = false ∧ job.attempts < 8 ∧ settle job r = .ret (.ok ())) := by
  cases r with
  | ok _ =>
    refine .inl ⟨.markDelivered job.id, _, rfl, fun _ _ => .inl ⟨rfl, rfl⟩, nofun, fun resp => ?_⟩
    cases resp with
    | ok _ => exact ⟨_, rfl, .inl rfl⟩
    | error _ => exact ⟨_, rfl, .inr fun _ => trivial⟩
  | error _ =>
    by_cases many : job.attempts ≥ 8
    · refine .inl ⟨.markFailed job.id, _, if_pos many, fun _ _ => .inr ⟨rfl, rfl⟩, fun _ => many, fun resp => ?_⟩
      cases resp with
      | ok _ => exact ⟨_, rfl, .inl rfl⟩
      | error _ => exact ⟨_, rfl, .inr fun _ => trivial⟩
    · exact .inr ⟨rfl, Nat.lt_of_not_ge many, if_neg many⟩

/-- When the attempt is over, its outcome is marked. -/
lemma deliverJob_left_ret {r : Except RelayError Unit} {rest : List Act}
    (h : (deliver st job).left acts = (.ret r, rest)) :
    (deliverJob st job).left acts = Prog.feed Act.op Act.resp (settle job r) rest := by
  rw [Relay.left, deliverJob_run, Prog.feed_bind_ret h]

/-- While the attempt goes on, so does the whole. -/
lemma deliverJob_left_req {o : Op} {k : o.Resp → Prog Op Op.Resp (Except RelayError Unit)} {rest : List Act}
    (h : (deliver st job).left acts = (.req o k, rest)) :
    (deliverJob st job).left acts = (.req o fun r => k r >>= settle job, rest) := by
  rw [Relay.left, deliverJob_run, Prog.feed_bind_req h]

/-- An action of `deliverJob` is one of `deliver`, after which the job may be left for another attempt, or it
records the outcome. -/
lemma deliverJob_step {k : a.op.Resp → Prog Op Op.Resp (Except RelayError Unit)}
    (h : (deliverJob st job).left acts = (.req a.op k, [])) :
    (¬ a.op.IsAuto ∧ ∀ r, k a.resp = .ret r → r = .ok () ∧ job.attempts < 8 ∧
        succeeds st job (acts ++ [a]) = false) ∨
      (a.MarksAs job.id (outcomeStatus (succeeds st job (acts ++ [a]))) ∧
        (succeeds st job (acts ++ [a]) = false → 8 ≤ job.attempts) ∧ (¬ a.Fails → k a.resp = .ret (.ok ()))) := by
  cases e : (deliver st job).left acts with
  | mk p rest =>
    cases p with
    | req o k' =>
      -- `deliver` goes on
      rw [deliverJob_left_req e] at h
      obtain ⟨e₁, rfl⟩ := Prod.mk.inj h
      obtain ⟨rfl, e₂⟩ := Prog.req.inj e₁
      cases e₂
      have asks : ((deliver st job).left acts).1.Asks fun o => ¬ o.IsAuto := (noAuto_deliver job).feed acts
      rw [e] at asks
      refine .inl ⟨asks.1, fun r left => ?_⟩
      have after : (deliver st job).left (acts ++ [a]) = (k' a.resp, []) := Prog.feed_snoc e
      cases ret : k' a.resp with
      | req o k =>
        simp only [ret] at left
        nomatch left
      | ret r' =>
        simp only [ret] at left after
        obtain ⟨_, _, record, _⟩ | ⟨failed, few, none⟩ := settle_cases job r'
        · exact nomatch record.symm.trans left
        · exact ⟨(Prog.ret.inj (none.symm.trans left)).symm, few, (succeeds_of_left after).trans failed⟩
    | ret r =>
      -- it has returned
      rw [deliverJob_left_ret e] at h
      have after : (deliver st job).left (acts ++ [a]) = (.ret r, rest ++ [a]) := Prog.feed_done e [a]
      rw [succeeds_of_left after]
      obtain ⟨au, k', record, marks, many, ends⟩ | ⟨_, _, none⟩ := settle_cases job r
      · rw [record] at h
        cases rest with
        | nil =>
          obtain ⟨e₁, -⟩ := Prod.mk.inj h
          obtain ⟨op, answer, es⟩ := a
          obtain ⟨rfl, e₂⟩ := Prog.req.inj e₁
          cases e₂
          refine .inr ⟨marks _ _, many, fun fine => ?_⟩
          obtain ⟨r', ret, rfl | fails⟩ := ends answer
          · exact ret
          · exact absurd (fails es) fine
        | cons b rest =>
          by_cases same : b.op = .auto au
          · obtain ⟨op, answer, es⟩ := b
            obtain rfl : op = .auto au := same
            obtain ⟨r', ret, -⟩ := ends answer
            rw [feed_act, ret, Prog.feed_ret] at h
            exact nomatch h
          · rw [Prog.feed_other same] at h
            exact nomatch (Prod.mk.inj h).2
      · rw [none, Prog.feed_ret] at h
        exact nomatch h

/-- A job for which there is nothing to do is left for another attempt. -/
lemma deliverJob_idle {r : Except RelayError Unit} (h : (deliverJob st job).left [] = (.ret r, [])) :
    r = .ok () ∧ job.attempts < 8 ∧ succeeds st job [] = false := by
  cases e : (deliver st job).left [] with
  | mk p rest =>
    have nothing : rest = [] := (Prod.mk.inj ((Prog.feed_nil _).symm.trans e)).2.symm
    subst nothing
    cases p with
    | req o k' =>
      rw [deliverJob_left_req e] at h
      nomatch h
    | ret r' =>
      rw [deliverJob_left_ret e, Prog.feed_nil] at h
      obtain ⟨_, _, record, _⟩ | ⟨failed, few, none⟩ := settle_cases job r'
      · exact nomatch record.symm.trans (Prod.mk.inj h).1
      · exact ⟨(Prog.ret.inj (none.symm.trans (Prod.mk.inj h).1)).symm, few, (succeeds_of_left e).trans failed⟩

/-- If `deliverJob` fails, then an operation has failed: the record of the outcome. -/
lemma deliverJob_error {e : RelayError} {rest : List Act}
    (h : (deliverJob st job).left acts = (.ret (.error e), rest)) : ∃ a ∈ acts, a.op.IsAuto ∧ a.Fails := by
  cases left : (deliver st job).left acts with
  | mk p posted =>
    cases p with
    | req o k =>
      rw [deliverJob_left_req left] at h
      nomatch h
    | ret r =>
      rw [deliverJob_left_ret left] at h
      obtain ⟨au, k, record, _, _, ends⟩ | ⟨_, _, none⟩ := settle_cases job r
      · rw [record] at h
        cases posted with
        | nil => nomatch h
        | cons b posted =>
          have mem : b ∈ acts := by
            have suffix : ((deliver st job).left acts).2 <:+ acts := Prog.feed_suffix _ acts
            rw [left] at suffix
            exact suffix.subset List.mem_cons_self
          by_cases same : b.op = .auto au
          · obtain ⟨op, answer, es⟩ := b
            obtain rfl : op = .auto au := same
            obtain ⟨r', ret, rfl | fails⟩ := ends answer
            · rw [feed_act, ret, Prog.feed_ret] at h
              nomatch h
            · exact ⟨_, mem, trivial, fails es⟩
          · rw [Prog.feed_other same] at h
            nomatch (Prod.mk.inj h).1
      · rw [none, Prog.feed_ret] at h
        nomatch h

/-! ## The loop -/

/-- After an attempt the rest of the batch is left. -/
lemma deliverAll_left_ok {rest : List Act} (h : (deliverJob st job).left acts = (.ret (.ok ()), rest)) :
    (deliverAll st (job :: jobs)).left acts = (deliverAll st jobs).left rest := by
  rw [Relay.left, deliverAll, ExceptT.run_bind, Prog.feed_bind_ret h]

/-- An attempt that fails ends the batch. -/
lemma deliverAll_left_error {e : RelayError} {rest : List Act}
    (h : (deliverJob st job).left acts = (.ret (.error e), rest)) :
    (deliverAll st (job :: jobs)).left acts = (.ret (.error e), rest) := by
  rw [Relay.left, deliverAll, ExceptT.run_bind, Prog.feed_bind_ret h]
  exact Prog.feed_pure _ _

/-- The batch waits for its first attempt. -/
lemma deliverAll_left_req (jobs : List DeliveryJob) {o : Op} {k : o.Resp → Prog Op Op.Resp (Except RelayError Unit)} {rest : List Act}
    (h : (deliverJob st job).left acts = (.req o k, rest)) :
    ∃ k', (deliverAll st (job :: jobs)).left acts = (.req o k', rest) := by
  rw [Relay.left, deliverAll, ExceptT.run_bind, Prog.feed_bind_req h]
  exact ⟨_, rfl⟩

/-- An attempt that is over is noted. -/
lemma tried_ok {rest : List Act} (h : (deliverJob st job).left acts = (.ret (.ok ()), rest)) :
    tried st (job :: jobs) acts = (job, succeeds st job acts) :: tried st jobs rest := by
  rw [tried, h]

/-- One that goes on is not. -/
lemma tried_req {o : Op} {k : o.Resp → Prog Op Op.Resp (Except RelayError Unit)} {rest : List Act}
    (h : (deliverJob st job).left acts = (.req o k, rest)) : tried st (job :: jobs) acts = [] := by
  rw [tried, h]

/-- Nor is one that failed. -/
lemma tried_error {e : RelayError} {rest : List Act}
    (h : (deliverJob st job).left acts = (.ret (.error e), rest)) : tried st (job :: jobs) acts = [] := by
  rw [tried, h]

/-- A `deliverJob` that has returned has its outcome. -/
lemma succeeds_append {r : Except RelayError Unit} {rest : List Act}
    (h : (deliverJob st job).left acts = (.ret r, rest)) (more : List Act) :
    succeeds st job (acts ++ more) = succeeds st job acts := by
  cases left : (deliver st job).left acts with
  | mk p posted =>
    cases p with
    | req o k =>
      rw [deliverJob_left_req left] at h
      nomatch h
    | ret r' =>
      have after : (deliver st job).left (acts ++ more) = (.ret r', posted ++ more) := Prog.feed_done left more
      rw [succeeds_of_left after, succeeds_of_left left]

/-- The jobs are dealt with in the order of the batch. -/
lemma tried_starts : (tried st jobs acts).map Prod.fst <+: jobs := by
  induction jobs generalizing acts with
  | nil => exact List.nil_prefix
  | cons job jobs ih =>
    cases left : (deliverJob st job).left acts with
    | mk p rest =>
      match p with
      | .ret (.ok ()) =>
        rw [tried_ok left, List.map_cons]
        exact (List.prefix_cons_inj job).mpr ih
      | .ret (.error e) => rw [tried_error left]; exact List.nil_prefix
      | .req o k => rw [tried_req left]; exact List.nil_prefix

/-- The attempt has failed, and is not the last. -/
def Again (e : DeliveryJob × Bool) : Prop := e.2 = false ∧ e.1.attempts < 8

/-- Without an action of its own a job is left for another attempt. -/
lemma tried_nil : ∀ e ∈ tried st jobs [], Again e := by
  induction jobs with
  | nil => exact fun e h => nomatch h
  | cons job jobs ih =>
    cases left : (deliverJob st job).left [] with
    | mk p rest =>
      have nothing : rest = [] := (Prod.mk.inj ((Prog.feed_nil _).symm.trans left)).2.symm
      subst nothing
      match p with
      | .ret (.ok ()) =>
        obtain ⟨_, few, failed⟩ := deliverJob_idle left
        rw [tried_ok left]
        intro e he
        obtain rfl | he := List.mem_cons.mp he
        · exact ⟨failed, few⟩
        · exact ih e he
      | .ret (.error e) => rw [tried_error left]; exact fun e h => nomatch h
      | .req o k => rw [tried_req left]; exact fun e h => nomatch h

/-- What an action adds to the attempts of its batch: failed ones that are not the last, and before them the one
it records the outcome of. -/
inductive Adds (a : Act) : List (DeliveryJob × Bool) → Prop
  | quiet {new} : ¬ a.op.IsAuto → (∀ e ∈ new, Again e) → Adds a new
  | record {job b new} : a.MarksAs job.id (outcomeStatus b) → (b = false → 8 ≤ job.attempts) →
      (∀ e ∈ new, Again e) → Adds a ((job, b) :: new)

/-- A mark claims nothing. -/
lemma Act.MarksAs.not_claim {id n : Nat} {status : JobStatus} (m : a.MarksAs id status) :
    a.op ≠ .auto (.claimDue n) := by
  obtain ⟨_, e⟩ | ⟨_, e⟩ := m
  · rw [e]; nofun
  · rw [e]; nofun

/-- A mark names one job. -/
lemma Act.MarksAs.id_eq {i j : Nat} {status status' : JobStatus} (m : a.MarksAs i status)
    (m' : a.MarksAs j status') : i = j := by
  obtain ⟨_, e⟩ | ⟨_, e⟩ := m <;> obtain ⟨_, e'⟩ | ⟨_, e'⟩ := m' <;> cases e.symm.trans e' <;> rfl

/-- What adds an attempt claims nothing. -/
lemma Adds.not_claim {new : List (DeliveryJob × Bool)} (h : Adds a new) {n : Nat} : a.op ≠ .auto (.claimDue n) := by
  cases h with
  | quiet quiet _ => exact fun e => quiet (e ▸ trivial)
  | record marks _ _ => exact marks.not_claim

/-- An action adds attempts to its batch. -/
lemma tried_step {k : a.op.Resp → Prog Op Op.Resp (Except RelayError Unit)}
    (h : (deliverAll st jobs).left acts = (.req a.op k, [])) (fine : a.op.IsAuto → ¬ a.Fails) :
    ∃ new, tried st jobs (acts ++ [a]) = tried st jobs acts ++ new ∧ Adds a new := by
  induction jobs generalizing acts with
  | nil =>
    have none : (deliverAll st []).left acts = (.ret (.ok ()), acts) := Prog.feed_pure _ _
    rw [none] at h
    nomatch h
  | cons job jobs ih =>
    cases left : (deliverJob st job).left acts with
    | mk p rest =>
      match p with
      | .ret (.ok ()) =>
        -- the action is one of a later job
        rw [deliverAll_left_ok left] at h
        obtain ⟨new, e, adds⟩ := ih h
        have after : (deliverJob st job).left (acts ++ [a]) = (.ret (.ok ()), rest ++ [a]) :=
          Prog.feed_done left [a]
        refine ⟨new, ?_, adds⟩
        rw [tried_ok left, tried_ok after, succeeds_append left, e, List.cons_append]
      | .ret (.error e) =>
        rw [deliverAll_left_error left] at h
        nomatch h
      | .req o k' =>
        obtain ⟨k'', e⟩ := deliverAll_left_req jobs left
        rw [e] at h
        obtain ⟨e₁, rfl⟩ := Prod.mk.inj h
        obtain ⟨rfl, -⟩ := Prog.req.inj e₁
        have after : (deliverJob st job).left (acts ++ [a]) = (k' a.resp, []) := Prog.feed_snoc left
        rw [tried_req left]
        refine ⟨_, (List.nil_append _).symm, ?_⟩
        obtain ⟨quiet, ends⟩ | ⟨marks, many, ends⟩ := deliverJob_step left
        · cases ret : k' a.resp with
          | req o k =>
            rw [ret] at after
            rw [tried_req after]
            exact .quiet quiet fun e h => nomatch h
          | ret r =>
            obtain ⟨rfl, few, failed⟩ := ends r ret
            rw [ret] at after
            rw [tried_ok after, failed]
            apply Adds.quiet quiet
            intro e he
            obtain rfl | he := List.mem_cons.mp he
            · exact ⟨rfl, few⟩
            · exact tried_nil e he
        · rw [ends (fine marks.isAuto)] at after
          rw [tried_ok after]
          exact .record marks many tried_nil

/-- A loop that has ended has dealt with every job. -/
lemma tried_done {r : Except RelayError Unit} {rest : List Act}
    (h : (deliverAll st jobs).left acts = (.ret r, rest)) (fine : ∀ a ∈ acts, a.op.IsAuto → ¬ a.Fails) :
    (tried st jobs acts).map Prod.fst = jobs := by
  induction jobs generalizing acts with
  | nil => rfl
  | cons job jobs ih =>
    cases left : (deliverJob st job).left acts with
    | mk p rest' =>
      match p with
      | .ret (.ok ()) =>
        have suffix : ((deliverJob st job).left acts).2 <:+ acts := Prog.feed_suffix _ acts
        rw [left] at suffix
        rw [deliverAll_left_ok left] at h
        rw [tried_ok left, List.map_cons, ih h fun a ha => fine a (suffix.subset ha)]
      | .ret (.error e) =>
        obtain ⟨a, ha, auto, fails⟩ := deliverJob_error left
        exact absurd fails (fine a ha auto)
      | .req o k =>
        obtain ⟨k', e⟩ := deliverAll_left_req jobs left
        rw [e] at h
        nomatch h

/-! ## Steps -/

variable {S S' : Sys} {ls : List Label}

/-- What is left of a call is what its actions have left of its program. -/
lemma Run.fed (r : Run st ls S) {t : Nat} {input : Input} {p : Prog Op Op.Resp Result} {l : Local}
    (h : S.tasks t = some ⟨input, some p, l⟩) :
    Prog.feed Act.op Act.resp (input.prog st) l.past = (p, []) := by
  induction r generalizing t input p l with
  | init => nomatch h
  | step r s ih =>
    cases s with
    | @spawn u input' free wf =>
      by_cases hu : t = u
      · subst hu
        simp only [Sys.set, Function.update_self, Option.some.injEq, Task.mk.injEq] at h
        obtain ⟨rfl, rfl, rfl⟩ := h
        exact Prog.feed_nil _
      · exact ih (by simpa [Sys.set, hu] using h)
    | @cancel u input' p' l' hm =>
      by_cases hu : t = u
      · subst hu
        simp [Sys.set] at h
      · exact ih (by simpa [Sys.set, hu] using h)
    | @act u input' o k l' x es seqs hm o' fr =>
      by_cases hu : t = u
      · subst hu
        simp only [Sys.set, Function.update_self, Option.some.injEq, Task.mk.injEq] at h
        obtain ⟨rfl, rfl, rfl⟩ := h
        exact Prog.feed_snoc (ih hm)
      · exact ih (by simpa [Sys.set, hu] using h)

/-- A statement that records an outcome and is answered has recorded it. -/
lemma Step.marked {t input l id status} (s : Step st S (.act t input l a) S') (m : a.MarksAs id status)
    (fine : ¬ a.Fails) : ∀ row ∈ S'.db.jobs, row.id = id → row.status = status := by
  obtain ⟨_, _, _, o, e, _⟩ := s.act_inv
  rw [e]
  clear e s
  have set (seqs : Seqs) : ∀ row ∈ (journal.replay S.db (S.db.markJob seqs id status).log).jobs, row.id = id →
      row.status = status := by
    intro row hr id_eq
    unfold Db.markJob at hr
    split at hr
    · rename_i none
      exact absurd id_eq (by simpa using List.find?_eq_none.mp none row (Table.mem_rows.mpr hr))
    · rename_i j found
      obtain ⟨i, hi, rfl⟩ := (Db.mem_updateJob ..).mp hr
      have same : j.id = id := by simpa using List.find?_some found
      rw [JobSet.at_id] at id_eq
      rw [JobSet.at, if_pos (id_eq.trans same.symm)]
      rfl
  obtain ⟨op, answer, es⟩ := a
  obtain ⟨rfl, rfl⟩ | ⟨rfl, rfl⟩ := m
  · cases o with
    | auto _ _ => exact set _
    | autoLost => exact absurd trivial fine
    | autoFault => exact absurd trivial fine
  · cases o with
    | auto _ _ => exact set _
    | autoLost => exact absurd trivial fine
    | autoFault => exact absurd trivial fine

/-- A claim yields every job once. -/
lemma Step.claimed_once {t input l} {jobs : List DeliveryJob} {es}
    (s : Step st S (.act t input l ⟨.auto (.claimDue 10), Except.ok jobs, es⟩) S') :
    jobs.Pairwise fun i j => i.id ≠ j.id := by
  obtain ⟨_, _, _, o, _, _⟩ := s.act_inv
  cases o with
  | @auto _ now locked r _ run perm =>
    simp only [Auto.run] at run
    split at run
    · cases run
      apply (List.Perm.pairwise_iff (fun h => Ne.symm h) perm).mp
      rw [List.pairwise_map]
      exact Db.dueJobs_ids
    · cases run

end WebLoginRelay
