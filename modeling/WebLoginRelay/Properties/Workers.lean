import WebLoginRelay.Properties.Delivering
import WebLoginRelay.Samples.Runs
import WebLoginRelay.System.Jobs

/-!
# Several workers on one table

A claim is a lease of five seconds: when it lapses another worker may claim the job, while the first one
still posts it. The marks do not say which attempt they are of, so that a slow worker can mark a job that
another one has marked since. While every mark is of the last attempt there is, a final status stays.
-/

namespace WebLoginRelay
open Text Txn

variable {st : AppState} {S S' : Sys} {lb : Label} {ls : List Label}

/-- A tick is disciplined. -/
lemma Step.disciplined (aead : st.crates.AeadCorrect) (json : st.crates.JsonCorrect)
    (compact : st.crates.JsonCompact) (r : Run st ls S) {t l a} (s : Step st S (.act t .tick l a) S') :
    Disciplined st l a := by
  obtain ⟨k, seqs, task, o, _, _⟩ := s.act_inv
  have w := r.within (Q := fun _ _ => True) (Relay.Ends.call (f := .ticked) (ends_tick aead json compact)
    (fun _ _ _ => trivial) fun _ _ _ => trivial) task
  exact (w a.resp a ⟨a.log, rfl, S.db, S.seqs, seqs, ⟨ls, S, t, _, r, task, rfl⟩, o⟩).1

/-- A mark is of a job the tick has claimed. -/
lemma Step.marks_claimed (r : Run st ls S) {t l a id status} (s : Step st S (.act t .tick l a) S')
    (m : a.MarksAs id status) : a.Marks id ∧ ∃ job, Claimed l.past job ∧ job.id = id := by
  obtain ⟨k, seqs, task, o, _, _⟩ := s.act_inv
  have ok := (r.inv.act task o).1
  obtain ⟨op, answer, es⟩ := a
  obtain ⟨_, rfl⟩ | ⟨_, rfl⟩ := m
  · exact ⟨.inl rfl, ok.2⟩
  · obtain ⟨_, job, claimed, e, _⟩ := ok
    exact ⟨.inr rfl, job, claimed, e⟩

/-- What has a task done before its action. -/
lemma Step.past_eq {t input l a} (s : Step st S (.act t input l a) S') : l.past = S.pastOf t := by
  obtain ⟨_, _, task, _, _, _⟩ := s.act_inv
  exact (Sys.pastOf_of_task task).symm

/-- A tick claims once. -/
lemma Step.claims_once (aead : st.crates.AeadCorrect) (json : st.crates.JsonCorrect)
    (compact : st.crates.JsonCompact) (r : Run st ls S) {t input l n answer es}
    (s : Step st S (.act t input l ⟨.auto (.claimDue n), answer, es⟩) S') (job : DeliveryJob) :
    ¬ Claimed (S.pastOf t) job := by
  obtain ⟨_, _, task, o, _, _⟩ := s.act_inv
  obtain ⟨rfl, _⟩ := (r.inv.act task o).1
  have disciplined := s.disciplined aead json compact r
  rintro ⟨_, _, mem, _⟩
  rw [← s.past_eq] at mem
  exact disciplined _ mem 10 rfl

/-! ## Final statuses -/

/-- Whoever holds the last attempt of a job with such a status has marked it. -/
def Accounted (P : JobStatus → Prop) (S : Sys) : Prop :=
  ∀ row ∈ S.db.jobs, P row.status → ∀ t job, Claimed (S.pastOf t) job → job.id = row.id →
    job.attempts = row.attempts → ∃ a ∈ S.pastOf t, a.Marks row.id

/-- A worker marks the job with such a status only while it holds the last attempt. -/
def Current (P : JobStatus → Prop) (S : Sys) : Label → Prop
  | .act _ .tick l a => ∀ id status, P status → a.MarksAs id status → ∀ job, Claimed l.past job →
    job.id = id → ∀ row ∈ S.db.jobs, row.id = id → row.attempts = job.attempts
  | _ => True

/-- Marks of the last attempt keep it so. -/
lemma Accounted.step {P : JobStatus → Prop} (waits : ¬ P .pending) (r : Run st ls S) (s : Step st S lb S')
    (current : Current P S lb) (h : Accounted P S) : Accounted P S' := by
  intro row' hr' final t job claimed id_eq attempts
  obtain ⟨row, hr, m⟩ | ⟨pending, _⟩ := (s.job_moves r).2 row' hr'
  swap
  · exact absurd (pending ▸ final) waits
  obtain claimed | ⟨input, l, es, jobs, rfl, hj⟩ := s.claimed_cases claimed
  · cases m with
    | stay =>
      obtain ⟨a, ha, marks⟩ := h row' hr final t job claimed id_eq attempts
      exact ⟨a, s.past_mono ha, marks⟩
    | claim _ pending _ _ => exact absurd (pending ▸ final : P .pending) waits
    | @mark u l a status e marks =>
      subst e
      obtain ⟨is, job', claimed', id_eq'⟩ := s.marks_claimed r marks
      -- the marking call holds the same attempt
      have last := current row.id status final marks job' claimed' id_eq' row hr rfl
      rw [s.past_eq] at claimed'
      obtain rfl := r.leases.unique t u job job' claimed claimed' (id_eq.trans id_eq'.symm)
        (attempts.trans last)
      obtain ⟨_, _, _, _, _, task⟩ := s.act_inv
      rw [Sys.pastOf_of_task task]
      exact ⟨a, List.mem_append_right _ (List.mem_singleton_self a), is⟩
  · obtain ⟨mem, pending, _⟩ := s.claimed_rows job hj
    obtain rfl := job_eq_of_id mem hr' id_eq
    exact absurd (pending ▸ final) waits

/-- So it is in every run. -/
lemma RunWhen.accounted {C : Sys → Label → Prop} {P : JobStatus → Prop} (waits : ¬ P .pending)
    (current : ∀ S lb, C S lb → Current P S lb) (r : RunWhen st C ls S) : Accounted P S := by
  induction r with
  | init => exact fun _ h => absurd h Table.not_mem_empty
  | step r c s ih => exact ih.step waits r.run s (current _ _ c)

/-- The call that makes such a mark has not made it before. -/
lemma Accounted.unmarked {P : JobStatus → Prop} (aead : st.crates.AeadCorrect) (json : st.crates.JsonCorrect)
    (compact : st.crates.JsonCompact) (h : Accounted P S) (r : Run st ls S) {t l a}
    (s : Step st S (.act t .tick l a) S') {row : DeliveryJob} (hr : row ∈ S.db.jobs) (final : P row.status)
    {status : JobStatus} (m : a.MarksAs row.id status) :
    ∀ job, Claimed l.past job → job.id = row.id → row.attempts ≠ job.attempts := by
  intro job claimed id_eq attempts
  rw [s.past_eq] at claimed
  obtain ⟨b, hb, marks⟩ := h row hr final t job claimed id_eq attempts.symm
  rw [← s.past_eq] at hb
  have disciplined := s.disciplined aead json compact r
  obtain ⟨op, answer, es⟩ := a
  obtain ⟨_, rfl⟩ | ⟨_, rfl⟩ := m
  · exact disciplined b hb marks
  · exact disciplined.1 b hb marks

/-- Every mark is of the last attempt there is. -/
def MarksLast (S : Sys) (lb : Label) : Prop := Current (· ≠ .pending) S lb

/-- In every run in which workers mark a job only while no other worker has claimed it since, a final
status stays. -/
theorem final_status_stays {ls' : List Label} (aead : st.crates.AeadCorrect)
    (json : st.crates.JsonCorrect) (compact : st.crates.JsonCompact) (r : RunWhen st MarksLast ls S)
    (s : StepsWhen st MarksLast S ls' S') {job : DeliveryJob} (hj : job ∈ S.db.jobs)
    (final : job.status ≠ .pending) : ∃ job' ∈ S'.db.jobs, job'.id = job.id ∧ job'.status = job.status := by
  induction s generalizing ls job with
  | nil => exact ⟨job, hj, rfl, rfl⟩
  | @cons S lb S₁ ls' S' c s _ ih =>
    obtain ⟨job₁, hj₁, m⟩ := (s.job_moves r.run).1 job hj
    have same : job₁.status = job.status := by
      cases m with
      | stay => rfl
      | claim _ pending _ _ => exact absurd pending final
      | @mark t l a status e m =>
        subst e
        have accounted := r.accounted (fun h => h rfl) fun _ _ c => c
        obtain ⟨_, job', claimed, id_eq⟩ := s.marks_claimed r.run m
        have settled : status ≠ .pending := by
          rintro rfl
          exact m.elim (fun m => nomatch m.1) fun m => nomatch m.1
        exact absurd (c job.id status settled m job' claimed id_eq job hj rfl)
          (accounted.unmarked aead json compact r.run s hj final m job' claimed id_eq)
    obtain ⟨job', hj', id_eq, status⟩ := ih (r.step c s) hj₁ (same ▸ final)
    exact ⟨job', hj', id_eq.trans m.id_eq, status.trans same⟩

/-- The jobs an action has claimed. -/
def Act.jobs (a : Act) : List DeliveryJob :=
  match a with
  | ⟨.auto (.claimDue _), Except.ok jobs, _⟩ => jobs
  | _ => []

/-- The call holds the last attempt of what it has claimed. -/
def Moment.holdsLast (m : Moment) : Bool :=
  m.loc.past.all fun a => a.jobs.all fun job =>
    m.db.jobs.rows.all fun row => row.id != job.id || row.attempts == job.attempts

/-- A mark of the last attempt is current. -/
lemma Moment.holdsLast.current {m : Moment} (h : m.holdsLast) {n : Nat} {S S₁ : Sys}
    (i : m.In n .tick S S₁) (P : JobStatus → Prop) : Current P S₁ (m.label n .tick) := by
  rintro id status _ _ job ⟨jobs, es, mem, hj⟩ id_eq row hr rfl
  have all := List.all_eq_true.mp (List.all_eq_true.mp h _ mem) job hj
  have last := List.all_eq_true.mp all row (Table.mem_rows.mpr (i.db ▸ hr))
  simpa [id_eq] using last

namespace Sample

/-- After `n` deliveries of Alice's assertion, ten seconds apart. -/
def failing : Nat → Env.Final Result
  | 0 => consented
  | n + 1 => ticked (failing n).db (failing n).seqs (Int64.ofNat (10000 * (n + 1)))

/-- What happens at the next delivery. -/
def failingTrace (n : Nat) : List Moment :=
  (env 0 (Int64.ofNat (10000 * (n + 1))) down).trace tickProg (failing n).db (failing n).seqs {}

/-- Every delivery ends its transactions. -/
lemma failing_closed : ∀ n < 8, (failing (n + 1)).loc.log = [] := by decide +kernel

/-- The relay tries to deliver the assertion in every kind of run that allows these deliveries. -/
lemma reaches_failing {C : Sys → Label → Prop} {ls : List Label} (r : Reaches relay C Sys.init 3 ls consented.db consented.seqs)
    (spawn : ∀ S n i, C S (.spawn n i)) (n : Nat) (h : n ≤ 8)
    (tick : ∀ k < n, ∀ m ∈ failingTrace k, ∀ S S₁, S.Quiet (3 + k) → m.In (3 + k) .tick S S₁ →
      C S₁ (m.label (3 + k) .tick)) :
    ∃ ls', Reaches relay C Sys.init (3 + n) ls' (failing n).db (failing n).seqs := by
  induction n with
  | zero => exact ⟨ls, r⟩
  | succ n ih =>
    obtain ⟨_, r⟩ := ih (Nat.le_of_succ_le h) fun k hk => tick k (Nat.lt_succ_of_lt hk)
    exact ⟨_, r.call (F := failing (n + 1)) (call_tick rfl) trivial (failing_closed n h)
      (fun S => spawn S _ _) (tick n (Nat.lt_succ_self n))⟩

end Sample

/-- The deliveries of Alice's assertion while her site is down. -/
lemma failing_holdsLast : ∀ k < 8, (Sample.failingTrace k).all Moment.holdsLast := by decide +kernel

/-- Alice's assertion has been given up, and the delivery after that. -/
def givenUp : { T : Env.Final Result //
    (Sample.env 0 200000 Sample.down).run Sample.tickProg (Sample.failing 8).db (Sample.failing 8).seqs {} = T ∧
    T.loc.log = [] ∧ (Sample.failing 8).db.jobs.rows.map (·.status) = [.failed] ∧
    ((Sample.env 0 200000 Sample.down).trace Sample.tickProg (Sample.failing 8).db (Sample.failing 8).seqs
      {}).all Moment.holdsLast } :=
  ⟨_, rfl, by decide +kernel⟩

/-- The assertion of Alice stays given up. -/
theorem final_status_stays_alice : ∃ ls S ls' S' job, RunWhen Sample.relay MarksLast ls S ∧
    StepsWhen Sample.relay MarksLast S ls' S' ∧ job ∈ S.db.jobs ∧ job.status ≠ .pending ∧
    ∃ job' ∈ S'.db.jobs, job'.id = job.id ∧ job'.status = job.status := by
  obtain ⟨T, hT, closed, status, last⟩ := givenUp
  have spawn (S : Sys) (n : Nat) (i : Input) : MarksLast S (.spawn n i) := trivial
  have r := Sample.reaches_consented (C := MarksLast)
    (Sample.reaches_requested spawn (fun _ _ _ _ _ => trivial) fun _ _ _ _ => trivial) spawn
    fun _ _ _ _ _ _ => trivial
  obtain ⟨ls, r⟩ := Sample.reaches_failing r spawn 8 (Nat.le_refl 8) fun k hk m hm _ _ _ i =>
    Moment.holdsLast.current (List.all_eq_true.mp (failing_holdsLast k hk) m hm) i _
  obtain ⟨S, run, q, hd, hs⟩ := r.run
  have call : (Sample.env 0 200000 Sample.down).call Sample.relay .tick S.db S.seqs = T := by
    rw [hd, hs]
    exact hT
  have wf : Input.WellFormed .tick := trivial
  obtain ⟨S', s, _⟩ := q.call (C := MarksLast) (Sample.env 0 200000 Sample.down) wf
    (by rw [call, closed]) (spawn S _ _) (by
      rw [hd, hs]
      exact fun m hm _ i => Moment.holdsLast.current (List.all_eq_true.mp last m hm) i _)
  obtain ⟨job, hj, e⟩ := List.mem_map.mp (status ▸ List.mem_singleton_self JobStatus.failed)
  have final : job.status ≠ .pending := by simp [e]
  have mem : job ∈ S.db.jobs := by rw [hd]; exact Table.mem_rows.mp hj
  exact ⟨ls, S, _, S', job, run, s, mem, final, final_status_stays Crates.stub_aead Crates.stub_json
    Crates.stub_compact run s mem final⟩

/-! A worker claims the last attempt of Alice's assertion, and while it posts it another one claims the job
again and delivers it. -/

namespace Sample

/-- The sites accept what is posted to them. -/
def up (_ : SiteRequest) : SiteResponse := ⟨200, []⟩

/-- What `after_assertion_accepted` does with an assertion it has read. -/
def afterParsed (job : DeliveryJob) (a : RelayAssertion) : Relay Unit :=
  Relay.inTx do
    match ← getMatching job.domain job.sessionId job.nonceHash with
    | none => return ()
    | some session =>
      match session.requestRoomCiphertext with
      | none => throw (.problem .internalError)
      | some room =>
        let roomId ← relay.decryptText room
        let nonce ← relay.decryptText session.nonceCiphertext
        let _ ← casUpdate session.id session.version { state := .assertionDelivered }
        Relay.commit
        sendSuccessResult relay roomId job.sessionId nonce a.sub

/-- What `deliver` does with it. -/
def deliverParsed (job : DeliveryJob) (a : RelayAssertion) : Relay Unit := do
  let response ← postJson job.domain job.kind.path (a.toBytes .stub) (some job.jti)
  if response.status ≠ 202 ∧ response.status ≠ 200 then throw (.problem .relayUnavailable)
  else afterParsed job a

/-- An attempt at an assertion that can be read goes on like this. -/
lemma deliver_parsed {job : DeliveryJob} {a : RelayAssertion} (kind : job.kind = .assertion)
    (dj : relay.decrypt job.payloadCiphertext = .ok (a.toBytes .stub)) :
    deliver relay job = deliverParsed job a := by
  have parsed := RelayAssertion.strictFromSlice_toBytes Crates.stub_json a
  have after : afterAssertionAccepted relay job (a.toBytes .stub) = afterParsed job a := by
    unfold afterAssertionAccepted
    rw [show relay.crates = .stub from rfl, parsed]
    rfl
  unfold deliver deliverParsed
  rw [dj, ← after, if_pos kind]
  simp only [kind, if_true]
  rfl

/-- The program of a delivery that has claimed the job of an assertion it can read. -/
def parsedProg (job : DeliveryJob) (a : RelayAssertion) : Prog Op Op.Resp Result :=
  Result.ticked <$> ExceptT.run do
    (ExceptT.mk do
      let r ← (deliverParsed job a).run
      match r with
      | .ok () => (markDelivered job.id).run
      | .error _ => if job.attempts ≥ 8 then (markFailed job.id).run else pure (.ok ()) : Relay Unit)
    return ()

/-- A delivery that claims one job goes on like this. -/
lemma tick_parsed (env : Env) {db : Db} {seqs : Seqs} {job : DeliveryJob} {a : RelayAssertion}
    (claimed : (env.answer db seqs {} (.auto (.claimDue 10))).resp = Except.ok [job])
    (kind : job.kind = .assertion)
    (dj : relay.decrypt job.payloadCiphertext = .ok (a.toBytes .stub)) :
    (env.pause tickProg db seqs {}).prog = parsedProg job a := by
  have split : (env.pause tickProg db seqs {}).prog = Result.ticked <$> ExceptT.run (do
      deliverAll relay (← Relay.liftResult (Relay.orInternal
        (env.answer db seqs {} (.auto (.claimDue 10))).resp))) := rfl
  rw [split, claimed, parsedProg, ← deliver_parsed kind dj]
  rfl

/-- It has claimed the job. -/
lemma claimed_pause {env : Env} {db : Db} {seqs : Seqs} {job : DeliveryJob}
    (claimed : (env.answer db seqs {} (.auto (.claimDue 10))).resp = Except.ok [job]) :
    Claimed (env.pause tickProg db seqs {}).loc.past job :=
  ⟨[job], (env.answer db seqs {} (.auto (.claimDue 10))).log, by
    rw [← claimed]
    exact List.mem_singleton_self _, List.mem_singleton_self _⟩

/-- It posts the assertion. -/
lemma trace_parsed (env : Env) {job : DeliveryJob} {a : RelayAssertion} (kind : job.kind = .assertion)
    (db : Db) (seqs : Seqs) (l : Local) : ∃ rest, env.trace (parsedProg job a) db seqs l =
      ⟨db, l, .request (job.post (a.toBytes .stub)),
        env.site l.past.length (job.post (a.toBytes .stub)), []⟩ :: rest := by
  have request : job.post (a.toBytes .stub) = ⟨job.domain, job.kind.path, .post,
      [("Idempotency-Key", job.jti)], a.toBytes .stub, maxSiteResponseBytes⟩ := by
    simp [DeliveryJob.post, kind]
  rw [request]
  exact ⟨_, rfl⟩

end Sample

/-- The slow worker has claimed the job. -/
def slowClaim : Env.Paused Result :=
  (Sample.env 0 80000 Sample.down).pause Sample.tickProg (Sample.failing 7).db (Sample.failing 7).seqs {}

/-- The fast worker has claimed it too. -/
def fastClaim : Env.Paused Result :=
  (Sample.env 0 90000 Sample.up).pause Sample.tickProg slowClaim.db slowClaim.seqs {}

/-- What the fast worker claims. -/
def reclaimed : { job : DeliveryJob //
    ((Sample.env 0 90000 Sample.up).answer slowClaim.db slowClaim.seqs {} (.auto (.claimDue 10))).resp =
      Except.ok [job] ∧
    Sample.content job = (.assertion, "a.io", some (Sample.assertion.toBytes .stub)) } :=
  ⟨fastClaim.db.jobs.rows.head (by decide +kernel), by decide +kernel⟩

/-- The fast worker has delivered the job. -/
def fastTick : Env.Final Result :=
  (Sample.env 0 90000 Sample.up).run (Sample.parsedProg reclaimed Sample.assertion) fastClaim.db
    fastClaim.seqs fastClaim.loc

/-- The slow worker has come to its end. -/
def slowTick : Env.Final Result :=
  (Sample.env 0 80000 Sample.down).run slowClaim.prog fastTick.db fastTick.seqs slowClaim.loc

/-- The fast worker delivers the job, and the slow one marks it failed. -/
lemma overtaken : slowClaim.loc.log = [] ∧ fastTick.loc.log = [] ∧
    fastTick.db.jobs.rows.map (·.status) = [.delivered] ∧
    slowTick.db.jobs.rows.map (·.status) = [.failed] := by decide +kernel

/-- A delivered job is turned into a failed one by a slower worker. -/
theorem delivered_job_fails : ¬ ∀ ls S ls' S' job, Run Sample.relay ls S → Steps Sample.relay S ls' S' →
    job ∈ S.db.jobs → job.status ≠ .pending →
    ∃ job' ∈ S'.db.jobs, job'.id = job.id ∧ job'.status = job.status := by
  intro claim
  obtain ⟨closed, closed', delivered, failed⟩ := overtaken
  obtain ⟨_, r⟩ := Sample.reaches_failing Sample.reaches_plain (fun _ _ _ => trivial) 7 (by decide)
    fun _ _ _ _ _ _ _ _ => trivial
  obtain ⟨S₀, r, q, hd, hs⟩ := r.run
  obtain ⟨k, tick⟩ : ∃ k, Sample.tickProg = .req (.auto (.claimDue 10)) k := ⟨_, rfl⟩
  -- the slow worker claims the job
  obtain ⟨S₁, spawned, hd₁, hs₁, task₁, others₁⟩ :=
    S₀.start Sample.relay .tick (q.free 10 (Nat.le_refl 10)) trivial
  have started : S₁.tasks 10 = some ⟨.tick, some (.req (.auto (.claimDue 10)) k), {}⟩ := by
    rw [task₁, Sample.prog_tick, tick]
  have idle₁ (u : Nat) (hu : u ≠ 10) : S₁.journalOf u = [] :=
    (Sys.journalOf_congr (others₁ u hu)).trans (q.idle u)
  obtain ⟨S₂, claims, hd₂, hs₂, task₂, others₂⟩ :=
    (Sample.env 0 80000 Sample.down).pause_step Sample.relay started idle₁
  rw [hd₁, hs₁, hd, hs, ← tick] at hd₂ hs₂ task₂
  change S₂.db = slowClaim.db at hd₂
  change S₂.seqs = slowClaim.seqs at hs₂
  change S₂.tasks 10 = some ⟨.tick, some slowClaim.prog, slowClaim.loc⟩ at task₂
  -- the fast one delivers it
  obtain ⟨S₃, spawned', hd₃, hs₃, task₃, others₃⟩ := S₂.start Sample.relay (t := 11) .tick
    ((others₂ 11 (by decide)).trans ((others₁ 11 (by decide)).trans (q.free 11 (by decide)))) trivial
  have idle₃ (u : Nat) (hu : u ≠ 11) : S₃.journalOf u = [] := by
    rw [Sys.journalOf_congr (others₃ u hu)]
    by_cases h : u = 10
    · subst h
      simpa [Sys.journalOf, task₂] using closed
    · exact (Sys.journalOf_congr (others₂ u h)).trans (idle₁ u h)
  obtain ⟨S₄, s₄, hd₄, hs₄, task₄, others₄⟩ := (Sample.env 0 90000 Sample.up).run_steps
    (C := fun _ _ => True) task₃ idle₃ fun _ _ _ _ => trivial
  obtain ⟨kind, _, dj⟩ := Sample.decrypt_of_content reclaimed.2.2
  have fast : (Sample.env 0 90000 Sample.up).run Sample.tickProg slowClaim.db slowClaim.seqs {} =
      fastTick := by
    rw [Env.run_pause, Sample.tick_parsed _ reclaimed.2.1 kind dj]
    rfl
  rw [hd₃, hs₃, hd₂, hs₂, Sample.prog_tick, fast] at hd₄ hs₄ task₄
  have idle₄ (u : Nat) (hu : u ≠ 10) : S₄.journalOf u = [] := by
    by_cases h : u = 11
    · subst h
      simpa [Sys.journalOf, task₄] using closed'
    · exact (Sys.journalOf_congr (others₄ u h)).trans (idle₃ u h)
  -- and the slow one gives it up
  have waiting : S₄.tasks 10 = some ⟨.tick, some slowClaim.prog, slowClaim.loc⟩ :=
    (others₄ 10 (by decide)).trans ((others₃ 10 (by decide)).trans task₂)
  obtain ⟨S₅, s₅, hd₅, _⟩ := (Sample.env 0 80000 Sample.down).run_steps
    (C := fun _ _ => True) waiting idle₄ fun _ _ _ _ => trivial
  rw [hd₄, hs₄] at hd₅
  change S₅.db = slowTick.db at hd₅
  obtain ⟨job, hj, e⟩ := List.mem_map.mp (delivered ▸ List.mem_singleton_self JobStatus.delivered)
  obtain ⟨job', hj', _, status⟩ := claim _ S₄ _ S₅ job
    ((((r.run.step spawned).step claims).step spawned').append s₄.steps) s₅.steps
    (by rw [hd₄]; exact Table.mem_rows.mp hj) (by simp [e])
  rw [hd₅, ← Table.mem_rows] at hj'
  have ends := List.mem_map_of_mem (f := (·.status)) hj'
  rw [failed, List.mem_singleton, status, e] at ends
  cases ends

/-! ## Acceptances -/

/-- A call that has done this has had the job accepted by its site. -/
def Accepted (st : AppState) (past : List Act) (job : DeliveryJob) : Prop :=
  Claimed past job ∧ ∃ a ∈ past, Delivers st job a

/-- Nothing comes between an acceptance and its mark: no other worker claims the job, or has claimed it,
and no operation fails. And a worker gives a job up only while no other worker has claimed it since. -/
structure Uninterrupted (st : AppState) (S : Sys) (t : Nat) (l : Local) (a : Act) : Prop where
  claims : ∀ row set, .jobUpdate row set ∈ a.log → (∃ n, a.op = .auto (.claimDue n)) →
    ∀ u job, Accepted st (S.pastOf u) job → job.id ≠ row.id
  accepts : ∀ job, Claimed l.past job → Delivers st job a →
    ∀ row ∈ S.db.jobs, row.id = job.id → row.attempts = job.attempts
  fails : a.Fails → ∀ job, Accepted st l.past job → ∃ b ∈ l.past, b.Marks job.id
  marks : ∀ id, a.MarksAs id .failed → ∀ job, Claimed l.past job → job.id = id →
    ∀ row ∈ S.db.jobs, row.id = id → row.attempts = job.attempts

/-- Every action of a tick is uninterrupted. -/
def Unbroken (st : AppState) (S : Sys) : Label → Prop
  | .act t .tick l a => Uninterrupted st S t l a
  | _ => True

/-- A job is accepted in the step, or was before. -/
lemma Step.accepted_cases (aead : st.crates.AeadCorrect) (json : st.crates.JsonCorrect)
    (compact : st.crates.JsonCompact) (r : Run st ls S) (s : Step st S lb S') {t : Nat}
    {job : DeliveryJob} (h : Accepted st (S'.pastOf t) job) : Accepted st (S.pastOf t) job ∨
      ∃ l a, lb = .act t .tick l a ∧ Claimed l.past job ∧ Delivers st job a := by
  obtain ⟨claimed, a, ha, d⟩ := h
  obtain claimed | ⟨input, l, es, jobs, rfl, hj⟩ := s.claimed_cases claimed
  · obtain e | ⟨input, l, b, rfl, past, e⟩ := s.pastOf t
    · exact .inl ⟨claimed, a, e ▸ ha, d⟩
    · rw [e] at ha
      obtain ha | ha := List.mem_append.mp ha
      · exact .inl ⟨claimed, a, ha, d⟩
      · cases List.mem_singleton.mp ha
        obtain ⟨_, _, task, o, _, _⟩ := s.act_inv
        obtain ⟨op, answer, es⟩ := a
        obtain ⟨payload, _, op_eq⟩ := d.op
        cases op_eq
        obtain ⟨rfl, _⟩ := (r.inv.act task o).1 rfl
        exact .inr ⟨l, _, rfl, past ▸ claimed, d⟩
  · -- a post comes after the claim
    obtain ⟨_, _, task, _, _, after⟩ := s.act_inv
    obtain ⟨payload, _, op⟩ := d.op
    rw [Sys.pastOf_of_task after] at ha
    obtain ha | ha := List.mem_append.mp ha
    · obtain ⟨op', answer, es'⟩ := a
      cases op
      obtain ⟨pre, post, past⟩ := List.append_of_mem ha
      obtain ⟨l', same, label⟩ := r.past_order task past
      obtain ⟨job', ⟨jobs', es'', mem, hj'⟩, _⟩ := r.posts label rfl
      refine absurd ⟨jobs', es'', ?_, hj'⟩ (s.claims_once aead json compact r job')
      rw [← s.past_eq, past]
      exact List.mem_append_left _ (same ▸ mem)
    · cases List.mem_singleton.mp ha
      nomatch op

/-- Whoever has had a job accepted holds its last attempt. -/
lemma RunWhen.accepted_last (aead : st.crates.AeadCorrect) (json : st.crates.JsonCorrect)
    (compact : st.crates.JsonCompact) (r : RunWhen st (Unbroken st) ls S) {t : Nat} {job : DeliveryJob}
    (h : Accepted st (S.pastOf t) job) : ∃ row ∈ S.db.jobs, row.id = job.id ∧ row.attempts = job.attempts := by
  induction r generalizing t job with
  | init => exact absurd h.1 fun ⟨_, _, h, _⟩ => nomatch h
  | @step ls S lb S' r c s ih =>
    have old : ∃ row ∈ S.db.jobs, row.id = job.id ∧ row.attempts = job.attempts ∧
        ∀ t' l a, lb = .act t' .tick l a → (∃ n, a.op = .auto (.claimDue n)) →
          ∀ set, .jobUpdate row set ∉ a.log := by
      obtain h | ⟨l, a, rfl, claimed, d⟩ := s.accepted_cases aead json compact r.run h
      · obtain ⟨row, hr, id_eq, attempts⟩ := ih h
        refine ⟨row, hr, id_eq, attempts, fun t' l a e claim set mem => ?_⟩
        subst e
        exact c.claims row set mem claim t job h id_eq.symm
      · have held := claimed
        rw [s.past_eq] at held
        obtain ⟨row, hr, id_eq, _⟩ := r.run.leases.row t job held
        refine ⟨row, hr, id_eq, c.accepts job claimed d row hr id_eq, fun t' l' a' e claim _ _ => ?_⟩
        cases e
        obtain ⟨_, _, op⟩ := d.op
        obtain ⟨n, op'⟩ := claim
        nomatch op.symm.trans op'
    obtain ⟨row, hr, id_eq, attempts, unclaimed⟩ := old
    obtain ⟨row', hr', m⟩ := (s.job_moves r.run).1 row hr
    refine ⟨row', hr', m.id_eq.trans id_eq, ?_⟩
    cases m with
    | stay => exact attempts
    | claim e _ wrote _ => exact absurd wrote (unclaimed _ _ _ e ⟨_, rfl⟩ _)
    | mark _ _ => exact attempts

/-- A worker that gives a job up has had it accepted only if an operation failed since. -/
lemma RunWhen.not_given_up (aead : st.crates.AeadCorrect) (json : st.crates.JsonCorrect)
    (compact : st.crates.JsonCompact) (r : RunWhen st (Unbroken st) ls S) {t l a}
    (s : Step st S (.act t .tick l a) S') {id : Nat} (m : a.MarksAs id .failed) {job : DeliveryJob}
    (id_eq : job.id = id) : ¬ Accepted st l.past job := by
  rintro ⟨claimed, b, hb, payload, dj, acc⟩
  obtain ⟨_, _, task, _, _, _⟩ := s.act_inv
  have disciplined := s.disciplined aead json compact r.run
  obtain ⟨op, answer, es⟩ := a
  obtain ⟨e, _⟩ | ⟨_, rfl⟩ := m
  · nomatch e
  obtain ⟨unmarked, blamed⟩ := disciplined
  obtain none | ⟨pre, f, post, past, fails, b', hb', acc'⟩ :=
    blamed _ ⟨job, payload, claimed, id_eq, dj, rfl⟩
  · exact none b hb acc
  -- the failed operation came after the acceptance
  obtain ⟨response, es', rfl, ok⟩ := acc'
  obtain hb' | hb' := List.mem_append.mp hb'
  swap
  · cases List.mem_singleton.mp hb'
    exact fails
  obtain ⟨l', same, label⟩ := r.run.past_order task past
  obtain ⟨S₁, c⟩ := r.holds label
  obtain ⟨pre', post', past'⟩ := List.append_of_mem hb'
  have posted_first : l.past = pre' ++ ⟨.request (job.post payload), Except.ok response, es'⟩ ::
      (post' ++ f :: post) := by rw [past, past', List.append_assoc, List.cons_append]
  obtain ⟨l'', same', label'⟩ := r.run.past_order task posted_first
  obtain ⟨job', ⟨jobs, es'', mem, hj⟩, payload', dj', posted⟩ := r.run.posts label' rfl
  have early : Claimed pre job' := ⟨jobs, es'', past' ▸ List.mem_append_left _ (same' ▸ mem), hj⟩
  have here : Claimed l.past job' := by
    obtain ⟨jobs, es, mem, hj⟩ := early
    exact ⟨jobs, es, past ▸ List.mem_append_left _ mem, hj⟩
  have twin : job'.id = job.id := id_of_post aead json (r.run.claimed task job' here)
    (r.run.claimed task job claimed) r.run.enclosed dj' dj posted.symm
  obtain ⟨mark, hm, marks⟩ := c.fails fails job'
    ⟨same ▸ early, _, same ▸ hb', payload', dj', by rw [← posted]; exact ⟨response, es', rfl, ok⟩⟩
  rw [same] at hm
  exact unmarked mark (past ▸ List.mem_append_left _ hm) (by rwa [← id_eq, ← twin])

/-- A failed job was never accepted. -/
lemma RunWhen.failed_unaccepted (aead : st.crates.AeadCorrect) (json : st.crates.JsonCorrect)
    (compact : st.crates.JsonCompact) (r : RunWhen st (Unbroken st) ls S) {row : DeliveryJob}
    (hr : row ∈ S.db.jobs) (failed : row.status = .failed) {t : Nat} {job : DeliveryJob}
    (id_eq : job.id = row.id) : ¬ Accepted st (S.pastOf t) job := by
  induction r generalizing row t job with
  | init => exact absurd hr Table.not_mem_empty
  | @step ls S lb S' r c s ih =>
    intro h
    have current (S : Sys) (lb : Label) (c : Unbroken st S lb) : Current (· = .failed) S lb := by
      cases lb with
      | act t input l a =>
        cases input with
        | tick =>
          rintro id status rfl m
          exact c.marks id m
        | _ => trivial
      | _ => trivial
    obtain ⟨row₀, hr₀, m⟩ | ⟨pending, _⟩ := (s.job_moves r.run).2 row hr
    swap
    · nomatch pending.symm.trans failed
    obtain h | ⟨l, a, rfl, claimed, d⟩ := s.accepted_cases aead json compact r.run h
    · cases m with
      | stay => exact ih hr₀ failed id_eq h
      | claim _ pending _ _ => nomatch pending.symm.trans failed
      | @mark u l a status e m =>
        subst e
        cases (failed : status = .failed)
        -- both hold the last attempt, so that the one who gives up has had it accepted
        obtain ⟨_, job', claimed, id_eq'⟩ := s.marks_claimed r.run m
        have last := c.marks _ m job' claimed id_eq' row₀ hr₀ rfl
        obtain ⟨row₁, hr₁, id_eq₁, attempts⟩ := r.accepted_last aead json compact h
        obtain rfl := job_eq_of_id hr₀ hr₁ (id_eq.symm.trans id_eq₁.symm)
        have held := claimed
        rw [s.past_eq] at held
        obtain rfl := r.run.leases.unique t u job job' h.1 held (id_eq.trans id_eq'.symm)
          (attempts.symm.trans last)
        rw [← s.past_eq] at h
        exact r.not_given_up aead json compact s m id_eq h
    · -- the job was given up before it was accepted
      have same : row = row₀ := by
        cases m with
        | stay => rfl
        | claim e _ _ _ =>
          cases e
          obtain ⟨_, _, op⟩ := d.op
          nomatch op
        | mark e m =>
          cases e
          obtain ⟨_, _, op⟩ := d.op
          exact m.elim (fun m => nomatch m.2.symm.trans op) fun m => nomatch m.2.symm.trans op
      subst same
      have attempts := c.accepts job claimed d row hr₀ id_eq.symm
      have held := claimed
      rw [s.past_eq] at held
      obtain ⟨b, hb, marks⟩ := r.accounted (P := (· = .failed)) (fun h => nomatch h) current row hr₀ failed t job
        held id_eq attempts.symm
      have disciplined := s.disciplined aead json compact r.run
      obtain ⟨payload, dj, acc⟩ := d
      obtain ⟨response, es, rfl, _⟩ := acc
      rw [← s.past_eq] at hb
      exact disciplined rfl row.id ⟨job, payload, claimed, id_eq, dj, rfl⟩ b hb marks

/-- What a task has done before a label of a run it has done at its end. -/
lemma Steps.past_mono {ls : List Label} (s : Steps st S ls S') {t : Nat} {a : Act} (h : a ∈ S.pastOf t) :
    a ∈ S'.pastOf t := by
  induction s with
  | nil => exact h
  | cons s _ ih => exact ih (s.past_mono h)

/-- In every run in which nothing comes between an acceptance and its mark, and a worker gives a job up
only while no other worker has claimed it since, a job that ends as failed was never accepted. -/
theorem failed_never_accepted (aead : st.crates.AeadCorrect) (json : st.crates.JsonCorrect)
    (compact : st.crates.JsonCompact) (r : RunWhen st (Unbroken st) ls S) {row : DeliveryJob}
    (hr : row ∈ S.db.jobs) (failed : row.status = .failed) {t input l req answer es}
    (h : .act t input l ⟨.request req, answer, es⟩ ∈ ls) {job : DeliveryJob}
    (p : Posts st l.past job req) (id_eq : job.id = row.id) :
    ¬ Act.Accepts req ⟨.request req, answer, es⟩ := by
  intro acc
  obtain ⟨⟨jobs, es', mem, hj⟩, payload, dj, rfl⟩ := p
  obtain ⟨pre, post, e⟩ := List.append_of_mem h
  obtain ⟨S₁, S₂, _, s, rest⟩ := r.run.at e
  obtain ⟨_, _, _, _, _, after⟩ := s.act_inv
  have kept {a : Act} (ha : a ∈ (l.after ⟨.request (job.post payload), answer, es⟩).past) : a ∈ S.pastOf t :=
    rest.past_mono (Sys.pastOf_of_task after ▸ ha)
  exact r.failed_unaccepted aead json compact hr failed id_eq
    ⟨⟨jobs, es', kept (List.mem_append_left _ mem), hj⟩, _,
      kept (List.mem_append_right _ (List.mem_singleton_self _)), payload, dj, acc⟩

/-- Nothing is accepted. -/
def Refuses (st : AppState) : Label → Prop
  | .act _ .tick _ a => ∀ job, ¬ Delivers st job a
  | _ => True

/-- A run in which nothing is accepted is unbroken. -/
lemma RunWhen.unbroken {C : Sys → Label → Prop} (aead : st.crates.AeadCorrect) (json : st.crates.JsonCorrect)
    (compact : st.crates.JsonCompact)
    (h : ∀ S lb, C S lb → Current (· = .failed) S lb ∧ Refuses st lb) (r : RunWhen st C ls S) :
    RunWhen st (Unbroken st) ls S ∧ ∀ t job, ¬ Accepted st (S.pastOf t) job := by
  induction r with
  | init => exact ⟨.init, fun t job acc => nomatch acc.1.choose_spec.choose_spec.1⟩
  | @step ls S lb S' r c s ih =>
    obtain ⟨unbroken, none⟩ := ih
    obtain ⟨current, refuses⟩ := h S lb c
    refine ⟨unbroken.step ?_ s, fun t job acc => ?_⟩
    · cases lb with
      | act t input l a =>
        cases input with
        | tick => exact
          { claims := fun _ _ _ _ u job acc => absurd acc (none u job)
            accepts := fun job _ d => absurd d (refuses job)
            fails := fun _ job acc => absurd (s.past_eq ▸ acc) (none t job)
            marks := fun id m => current id _ rfl m }
        | _ => trivial
      | _ => trivial
    · obtain old | ⟨l, a, rfl, _, d⟩ := s.accepted_cases aead json compact unbroken.run acc
      · exact none t job old
      · exact refuses job d

/-- The site does not accept what is posted. -/
def Moment.isRefused (m : Moment) : Bool :=
  match m.act with
  | ⟨.request _, Except.ok response, _⟩ => response.status != 202 && response.status != 200
  | _ => true

/-- A post that is refused is not accepted. -/
lemma Moment.isRefused.refuses {m : Moment} (h : m.isRefused) (st : AppState) (n : Nat) :
    Refuses st (m.label n .tick) := by
  obtain ⟨db, l, op, answer, es⟩ := m
  rintro job ⟨payload, _, response, es', e, ok⟩
  cases e
  simp only [isRefused, Bool.and_eq_true, bne_iff_ne] at h
  exact ok.elim h.1 h.2

/-- The last delivery of Alice's assertion. -/
lemma failing_refused : (∀ k < 8, (Sample.failingTrace k).all Moment.isRefused) ∧
    (Sample.failing 8).db.jobs.rows.map (·.status) = [.failed] ∧
    (Sample.failingTrace 7).any Moment.isPost := by decide +kernel

/-- The assertion of Alice, which was given up, was never accepted. -/
theorem failed_never_accepted_alice : ∃ ls S row t l req answer es job,
    RunWhen Sample.relay (Unbroken Sample.relay) ls S ∧ row ∈ S.db.jobs ∧ row.status = .failed ∧
    .act t .tick l ⟨.request req, answer, es⟩ ∈ ls ∧ Posts Sample.relay l.past job req ∧
    job.id = row.id ∧ ¬ Act.Accepts req ⟨.request req, answer, es⟩ := by
  obtain ⟨refused, status, posts⟩ := failing_refused
  let C : Sys → Label → Prop := fun S lb => Current (· = .failed) S lb ∧ Refuses Sample.relay lb
  have spawn (S : Sys) (n : Nat) (i : Input) : C S (.spawn n i) := ⟨trivial, trivial⟩
  have ticks (k : Nat) (hk : k < 8) (m : Moment) (hm : m ∈ Sample.failingTrace k) (S S₁ : Sys)
      (_ : S.Quiet (3 + k)) (i : m.In (3 + k) .tick S S₁) : C S₁ (m.label (3 + k) .tick) :=
    ⟨Moment.holdsLast.current (List.all_eq_true.mp (failing_holdsLast k hk) m hm) i _,
      Moment.isRefused.refuses (List.all_eq_true.mp (refused k hk) m hm) _ _⟩
  have r := Sample.reaches_consented (C := C) (Sample.reaches_requested spawn
    (fun _ _ _ _ _ => ⟨trivial, trivial⟩) fun _ _ _ _ => ⟨trivial, trivial⟩) spawn
    fun _ _ _ _ _ _ => ⟨trivial, trivial⟩
  obtain ⟨ls, r⟩ := Sample.reaches_failing r spawn 7 (by decide) fun k hk => ticks k (by omega)
  -- the last delivery posts the assertion
  obtain ⟨m, mem, isPost⟩ := List.any_eq_true.mp posts
  have label : m.label 10 .tick ∈ (Sample.env 0 80000 Sample.down).labels Sample.relay 10 .tick
      (Sample.failing 7).db (Sample.failing 7).seqs := List.mem_cons_of_mem _ (List.mem_map_of_mem mem)
  obtain ⟨S, run, _, hd, _⟩ := (r.call (F := Sample.failing 8) (Sample.call_tick rfl) trivial
    (Sample.failing_closed 7 (by decide)) (fun S => spawn S _ _) (ticks 7 (by decide))).run
  obtain ⟨unbroken, _⟩ := run.unbroken Crates.stub_aead Crates.stub_json Crates.stub_compact fun _ _ c => c
  obtain ⟨db, l, op, answer, es⟩ := m
  cases op with
  | request req =>
    have posted := List.mem_append_right ls label
    obtain ⟨job, claimed, payload, dj, e⟩ := run.run.posts posted (by simpa [Moment.isPost] using isPost)
    obtain ⟨job', hj', fixed⟩ := run.run.claimed_stays posted claimed
    have failed := List.mem_map_of_mem (f := (·.status)) (hd ▸ Table.mem_rows.mpr hj')
    rw [status, List.mem_singleton] at failed
    have id_eq : job.id = job'.id := DeliveryJob.of_fixed fixed.symm (·.id) fun _ => rfl
    exact ⟨_, S, job', 10, l, req, answer, es, job, unbroken, hj', failed, posted, ⟨claimed, payload, dj, e⟩,
      id_eq, failed_never_accepted Crates.stub_aead Crates.stub_json Crates.stub_compact unbroken hj' failed
        posted ⟨claimed, payload, dj, e⟩ id_eq⟩
  | _ => nomatch isPost

/-! The site accepts the last attempt of Alice's assertion, and the outbox refuses the notice of it. -/

/-- The site is up, and the outbox is down. -/
def silent : Env :=
  { Sample.env 0 80000 Sample.up with notice := fun _ => .error (.problem .internalError) }

/-- The worker has claimed the last attempt. -/
def silentClaim : Env.Paused Result :=
  silent.pause Sample.tickProg (Sample.failing 7).db (Sample.failing 7).seqs {}

/-- What it has claimed. -/
def lastAttempt : { job : DeliveryJob //
    (silent.answer (Sample.failing 7).db (Sample.failing 7).seqs {} (.auto (.claimDue 10))).resp =
      Except.ok [job] ∧
    Sample.content job = (.assertion, "a.io", some (Sample.assertion.toBytes .stub)) } :=
  ⟨silentClaim.db.jobs.rows.head (by decide +kernel), by decide +kernel⟩

/-- The worker has come to its end. -/
def silentTick : Env.Final Result :=
  silent.run (Sample.parsedProg lastAttempt Sample.assertion) silentClaim.db silentClaim.seqs
    silentClaim.loc

/-- The job that the site has accepted is marked failed. -/
lemma silenced : silentTick.loc.log = [] ∧ silentTick.db.jobs.rows.map (·.status) = [.failed] := by
  decide +kernel

/-- An assertion the site has accepted is recorded as failed. -/
theorem accepted_assertion_fails : ¬ ∀ ls S row t input l req answer es job, Run Sample.relay ls S →
    row ∈ S.db.jobs → row.status = .failed → .act t input l ⟨.request req, answer, es⟩ ∈ ls →
    Posts Sample.relay l.past job req → job.id = row.id →
    ¬ Act.Accepts req ⟨.request req, answer, es⟩ := by
  intro claim
  obtain ⟨closed, failed⟩ := silenced
  obtain ⟨_, r⟩ := Sample.reaches_failing Sample.reaches_plain (fun _ _ _ => trivial) 7 (by decide)
    fun _ _ _ _ _ _ _ _ => trivial
  obtain ⟨S₀, r, q, hd, hs⟩ := r.run
  obtain ⟨kind, _, dj⟩ := Sample.decrypt_of_content lastAttempt.2.2
  have claimed := lastAttempt.2.1
  have prog : silentClaim.prog = Sample.parsedProg lastAttempt Sample.assertion :=
    Sample.tick_parsed _ claimed kind dj
  have call : silent.call Sample.relay .tick S₀.db S₀.seqs = silentTick := by
    rw [Env.call, Sample.prog_tick, hd, hs, Env.run_pause, Sample.tick_parsed _ claimed kind dj]
    rfl
  have wf : Input.WellFormed .tick := trivial
  obtain ⟨S, s, hd', _⟩ := q.call (C := fun _ _ => True) silent wf (by rw [call, closed]) trivial
    fun _ _ _ _ => trivial
  rw [call] at hd'
  -- the post comes after the claim
  obtain ⟨rest, trace⟩ := Sample.trace_parsed silent kind silentClaim.db silentClaim.seqs silentClaim.loc
  have posted : Label.act 10 .tick silentClaim.loc ⟨.request (lastAttempt.1.post
      (Sample.assertion.toBytes .stub)), Except.ok ⟨200, []⟩, []⟩ ∈
      silent.labels Sample.relay 10 .tick S₀.db S₀.seqs := by
    rw [Env.labels, Sample.prog_tick, hd, hs, Env.trace_pause _ (show Sample.tickProg = .req _ _ from rfl)]
    refine List.mem_cons_of_mem _ (List.mem_cons_of_mem _ ?_)
    change _ ∈ (silent.trace silentClaim.prog silentClaim.db silentClaim.seqs silentClaim.loc).map _
    rw [prog, trace]
    exact List.mem_cons_self
  have holds : Claimed silentClaim.loc.past lastAttempt.1 := Sample.claimed_pause claimed
  have run := r.append s
  obtain ⟨row, hr, fixed⟩ := run.run.claimed_stays (List.mem_append_right _ posted) holds
  have status := List.mem_map_of_mem (f := (·.status)) (hd' ▸ Table.mem_rows.mpr hr)
  rw [failed, List.mem_singleton] at status
  exact claim _ S row 10 _ _ _ _ _ lastAttempt run.run hr status (List.mem_append_right _ posted)
    ⟨holds, _, dj, rfl⟩ (DeliveryJob.of_fixed fixed.symm (·.id) fun _ => rfl) ⟨_, _, rfl, .inr rfl⟩

end WebLoginRelay
