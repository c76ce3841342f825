import WebLoginRelay.Properties.Revocation
import WebLoginRelay.Properties.Workers

/-!
# Revocation is final

A committed Revocation enqueues a job of its own and leaves the assertion jobs of its subject alone: one
that is still pending is posted later, and so is one that a running delivery has claimed. Nothing older
is posted after a Revocation that finds all assertions of its subject settled.
-/

namespace WebLoginRelay
open Text Txn

variable {st : AppState} {input : Input} {past : List Act} {db db' : Db}

/-- A batch of jobs was claimed. -/
def HasClaimed (past : List Act) : Prop :=
  ∃ (jobs : List DeliveryJob) (es : List Entry), ⟨.auto (.claimDue 10), Except.ok jobs, es⟩ ∈ past

/-- No assertion of the subject is pending, and no delivery under way has one still to post. -/
def Settled (st : AppState) (domain x : String) (S : Sys) : Prop :=
  ∀ j ∈ S.db.jobs, j.isFor st .assertion domain x → j.status ≠ .pending ∧
    ∀ t task p payload, S.tasks t = some task → task.rest = some p → HasClaimed task.loc.past →
      ¬ p.MayAsk (.request (j.post payload))

/-- A Revocation of an active grant is committed only when the assertions of its subject are settled. -/
def RevokesSettled (st : AppState) (S : Sys) : Label → Prop
  | .act _ (.inbound event) l a => a.Effective (.inbound event) l →
    ∀ sessionId nonce sentAt x reason,
      event.message? st = some (.revocation sessionId nonce sentAt x reason) →
      ∀ row ∈ S.db.sessions, row.sessionId = sessionId → row.nonceHash = st.lookupHash nonce →
        Active S.db row.domain (st.lookupHash x) → Settled st row.domain x S
  | _ => True

/-- A revoking step that meets the condition finds the assertions of the subject settled. -/
lemma Step.settled {ls S lb S' domain x} (hmac : st.crates.HmacCollisionFree) (r : Run st ls S)
    (s : Step st S lb S') (ok : RevokesSettled st S lb)
    (rev : Revokes domain (st.lookupHash x) S S') : Settled st domain x S := by
  obtain ⟨g, hg, g', hg', hd, hs, hi, act, revoked⟩ := rev
  obtain e | ⟨t, input, l, a, rfl, eff, ch⟩ := r.inv.step_change s
  · rw [e] at hg'
    obtain rfl := grant_eq_of_id hg' hg hi
    exact absurd act revoked
  obtain ⟨f, hf, ev⟩ | ⟨event, _, c, rfl, _⟩ := ch.grant_origin hg'
  · have fi : g'.fixed.id = f.fixed.id := by rw [ev.fixed]
    obtain rfl := grant_eq_of_id hf hg (fi.symm.trans hi)
    cases ev with
    | same => exact absurd act revoked
    | link i c _ _ => exact absurd rfl revoked
    | @revoke event i c e =>
      subst i
      have found := SessionFilter.accepts_sessionAndNonce.mp c.found
      have domain_eq : c.session.domain = domain := by
        rw [← c.grant_domain, ← e, hd]
      have x_eq : c.siteAccountId = x := by
        refine AppState.lookupHash_inj hmac ?_
        rw [← c.grant_subject, ← e, hs]
      have settled := ok eff _ _ _ _ _ c.message c.session c.mem found.1 found.2
        ⟨c.grant, c.grant_mem, c.grant_domain, c.grant_subject, c.active⟩
      rwa [domain_eq, x_eq] at settled
  · exact absurd rfl revoked

/-- A job that is not pending stays so. -/
lemma Change.settled_stays (ch : Change st input past db db') {i : DeliveryJob}
    (h : ∃ j ∈ db.jobs, j.fixed = i.fixed ∧ j.status ≠ .pending) :
    ∃ j ∈ db'.jobs, j.fixed = i.fixed ∧ j.status ≠ .pending := by
  have updated {db : Db} (c : JobSet) (keep : ∀ j : DeliveryJob, j.status ≠ .pending →
      (c.on j).status ≠ .pending) (id : Nat)
      (h : ∃ j ∈ db.jobs, j.fixed = i.fixed ∧ j.status ≠ .pending) :
      ∃ j ∈ (db.updateJob id c).jobs, j.fixed = i.fixed ∧ j.status ≠ .pending := by
    obtain ⟨j, hj, fx, np⟩ := h
    refine ⟨c.at id j, (Db.mem_updateJob ..).mpr ⟨j, hj, rfl⟩, (c.at_fixed id j).trans fx, ?_⟩
    unfold JobSet.at
    split
    · exact keep j np
    · exact np
  cases ch with
  | keep => exact h
  | register c => exact h
  | request c => exact h
  | refuse c _ => exact h
  | approve c =>
    obtain ⟨j, hj, rest⟩ := h
    exact ⟨j, c.mem_result_jobs.mpr (.inl hj), rest⟩
  | revoke c =>
    obtain ⟨j, hj, rest⟩ := h
    exact ⟨j, c.mem_result_jobs.mpr (.inl hj), rest⟩
  | deliver c => exact h
  | @claim past db now jobs due =>
    clear due
    induction jobs generalizing db with
    | nil => exact h
    | cons k jobs ih => exact ih (updated (.claim (now + retryInterval)) (fun j np => np) k.id h)
  | mark _ why _ _ =>
    refine updated _ (fun j _ => ?_) _ h
    obtain rfl | ⟨rfl, _⟩ := why
    · exact nofun
    · exact nofun

/-- The post of an assertion shows its `jti`. -/
lemma DeliveryJob.post_jti {i j : DeliveryJob} {payload payload' : Bytes}
    (e : i.post payload = j.post payload') (kind : j.kind = .assertion) : i.jti = j.jti := by
  have path : i.kind.path = j.kind.path := congrArg SiteRequest.path e
  have headers := congrArg SiteRequest.extraHeaders e
  cases hi : i.kind with
  | revocation =>
    rw [hi, kind] at path
    exact absurd path (by decide)
  | assertion =>
    simp only [DeliveryJob.post, hi, kind, if_pos, List.cons.injEq, Prod.mk.injEq] at headers
    exact headers.1.2

/-- Jobs with one `jti` are one job. -/
lemma job_eq_of_jti {i j : DeliveryJob} (hi : i ∈ db.jobs) (hj : j ∈ db.jobs) (e : i.jti = j.jti) :
    i = j := Table.eq_of_clash (fun _ _ => DeliveryJob.Clash.symm) hi hj (.inr e)

/-- A job that is not pending is not in a batch claimed later. -/
lemma Steps.not_claimed {S S₁ S₂ : Sys} {ls t input l limit jobs es} {j job : DeliveryJob}
    (inv : Sys.Inv st S) (s : Steps st S ls S₁)
    (claim : Step st S₁ (.act t input l ⟨.auto (.claimDue limit), Except.ok jobs, es⟩) S₂)
    (hj : j ∈ S.db.jobs) (settled : j.status ≠ .pending) (mem : job ∈ jobs) : job.jti ≠ j.jti := by
  intro e
  obtain ⟨j', hj', fx, np⟩ := s.keep_db
    (P := fun db => ∃ j' ∈ db.jobs, j'.fixed = j.fixed ∧ j'.status ≠ .pending) inv
    (fun ch h => ch.settled_stays h) ⟨j, hj, rfl, settled⟩
  obtain ⟨_, _, _, o, _, _⟩ := claim.act_inv
  obtain ⟨now, due⟩ := o.claim_inv
  obtain ⟨i, hi, isDue, rfl⟩ := due job mem
  have jti : j'.fixed.jti = j.fixed.jti := by rw [fx]
  obtain rfl := job_eq_of_jti hi hj' (e.trans jti.symm)
  simp only [DeliveryJob.isDue, Bool.and_eq_true, beq_iff_eq] at isDue
  exact np isDue.1

/-- A Revocation that finds the assertions of its subject settled is final: no assertion that was enqueued
before it is posted after it, whatever else happens. -/
theorem revocation_final {ls ls' S₁ S₂ S₃ S₄ lb t input l req answer es domain x}
    (hmac : st.crates.HmacCollisionFree) (r : Run st ls S₁)
    (ok : RevokesSettled st S₁ lb) (s : Step st S₁ lb S₂)
    (rev : Revokes domain (st.lookupHash x) S₁ S₂)
    (later : Steps st S₂ ls' S₃)
    (post : Step st S₃ (.act t input l ⟨.request req, answer, es⟩) S₄) :
    ∀ j ∈ S₁.db.jobs, j.isFor st .assertion domain x → ∀ payload, req ≠ j.post payload := by
  intro j hj isFor payload e
  obtain ⟨settled, idle⟩ := s.settled hmac r ok rev j hj isFor
  have steps : Steps st S₁ (lb :: ls') S₃ := .cons s later
  have run : Run st (ls ++ (lb :: ls')) S₃ := r.append steps
  obtain ⟨k, seqs, task, o, _, _⟩ := post.act_inv
  -- the post is for a job of a batch the task has claimed
  have permits := (run.inv.act task o).1
  simp only [Permits] at permits
  obtain ⟨_, job, payload', ⟨jobs, es', mem, hjob⟩, _, e'⟩ := permits (by rw [e]; rfl)
  have kind : j.kind = .assertion := by
    simp only [DeliveryJob.isFor, Bool.and_eq_true, beq_iff_eq] at isFor
    exact isFor.1.1
  have jti : job.jti = j.jti := DeliveryJob.post_jti (e'.symm.trans e) kind
  obtain ⟨l', label⟩ := run.past task mem
  obtain before | after := List.mem_append.mp label
  · -- it was claimed before the revocation: the task was under way, with this post ahead
    obtain ⟨pre, mid, rfl⟩ := List.append_of_mem before
    obtain ⟨Sa, Sb, ra, sa, sb⟩ := r.at rfl
    obtain ⟨_, _, _, _, _, hb⟩ := sa.act_inv
    obtain ⟨task₁, h₁, _, m₁⟩ := sb.past_keep (ra.inv.step sa)
      ⟨_, hb, rfl, List.mem_append_right _ (List.mem_singleton_self _)⟩
    obtain ⟨p, hp, may⟩ := steps.mayAsk r.inv h₁ task rfl (.inl rfl)
    rw [e] at may
    exact idle t task₁ p payload h₁ hp ⟨jobs, es', m₁⟩ may
  · -- it was claimed after the revocation, when it was not pending
    obtain ⟨pre, mid, split⟩ := List.append_of_mem after
    rw [split] at steps
    obtain ⟨Sa, Sb, sa, claim, _⟩ := steps.at
    exact sa.not_claimed r.inv claim hj settled hjob jti

/-- A moment in which no delivery can have an assertion to post. -/
def Moment.isSettled (m : Moment) : Bool :=
  m.db.jobs.rows.all (·.status != .pending) && m.loc.past.all fun a =>
    match a.op with
    | .auto _ => false
    | _ => true

/-- Nothing is pending, and the other calls have returned. -/
lemma Moment.isSettled.settled {m : Moment} (h : m.isSettled) {n : Nat} {input : Input} {S S₁ : Sys}
    (q : S.Quiet n) (i : m.In n input S S₁) (domain x : String) : Settled st domain x S₁ := by
  simp only [Moment.isSettled, Bool.and_eq_true, List.all_eq_true] at h
  intro j hj _
  rw [i.db] at hj
  refine ⟨bne_iff_ne.mp (h.1 j hj), fun t task p payload ht hp claimed ask => ?_⟩
  by_cases own : t = n
  · subst own
    obtain ⟨_, e⟩ := i.task
    cases e.symm.trans ht
    obtain ⟨jobs, es, mem⟩ := claimed
    nomatch h.2 _ mem
  · rw [i.others t own] at ht
    obtain ⟨r, rfl⟩ := q.done t task p ht hp
    exact ask

/-- Alice has unlinked her account after her assertion was given up. -/
def revokedLate : Env.Final Result :=
  Sample.alice.revoked (Sample.failing 8).db (Sample.failing 8).seqs 14 "$revocation" "@a:h"
    Sample.alice.subject

/-- The delivery after that. -/
def deliveredLate : { T : Env.Final Result //
    Sample.ticked revokedLate.db revokedLate.seqs 200000 = T ∧ revokedLate.loc.log = [] ∧
    T.loc.log = [] ∧ (Sample.failing 8).db.jobs.rows.length = 1 ∧ revokedLate.db.jobs.rows.length = 2 ∧
    (((Sample.env 14 Sample.loginTime Sample.alice.site).trace
      (Sample.alice.revocationProg "$revocation" "@a:h" Sample.alice.subject) (Sample.failing 8).db
      (Sample.failing 8).seqs {}).all fun m => m.act.op != .commit || m.isSettled) ∧
    ((Sample.env 0 200000 Sample.down).trace Sample.tickProg revokedLate.db revokedLate.seqs {}).any
      Moment.isPost } :=
  ⟨_, rfl, by decide +kernel⟩

/-- The revocation of Alice after her assertion was given up. -/
theorem revocation_final_alice : ∃ ls S₁ lb S₂ ls' S₃ t l req answer es S₄ domain,
    Run Sample.relay ls S₁ ∧ RevokesSettled Sample.relay S₁ lb ∧ Step Sample.relay S₁ lb S₂ ∧
    Revokes domain (Sample.relay.lookupHash Sample.alice.subject) S₁ S₂ ∧
    Steps Sample.relay S₂ ls' S₃ ∧
    Step Sample.relay S₃ (.act t .tick l ⟨.request req, answer, es⟩) S₄ ∧
    ∀ j ∈ S₁.db.jobs, j.isFor Sample.relay .assertion domain Sample.alice.subject →
      ∀ payload, req ≠ j.post payload := by
  have read := Sample.alice_revocation "$revocation"
  obtain ⟨T, hT, closed, closed', count, count', settled, posts⟩ := deliveredLate
  have spawn (S : Sys) (n : Nat) (i : Input) : RevokesSettled Sample.relay S (.spawn n i) := trivial
  have tick (S : Sys) (n : Nat) (l : Local) (a : Act) :
      RevokesSettled Sample.relay S (.act n .tick l a) := trivial
  have r := Sample.reaches_consented (C := RevokesSettled Sample.relay)
    (Sample.reaches_requested spawn (fun _ _ _ _ _ => trivial) fun S n l a _ _ _ _ _ _ msg => by
      rw [Sample.alice_valid.request] at msg
      cases msg) spawn fun m _ S S₁ _ _ _ _ _ _ _ _ msg => by
      rw [Sample.alice_valid.consent] at msg
      cases msg
  obtain ⟨_, r⟩ := Sample.reaches_failing r spawn 8 (Nat.le_refl 8) fun _ _ m _ _ S₁ _ _ => tick S₁ _ m.loc m.act
  obtain ⟨ls, S₁, l, a, S₂, ls', S, s₁, before, ok, s, after, later, q, hd, hs⟩ :=
    r.turnWhen (P := fun db => db.jobs.rows.length = 1) (F := revokedLate)
      (Sample.Login.call_revocation read rfl) rfl closed (fun S => spawn S _ _) (by
        rw [Input.prog_revocation read]
        intro m hm S S₁ q i eff _ _ _ x _ _ row _ _ _ _
        have h := List.all_eq_true.mp settled m hm
        rw [eff.commit] at h
        exact Moment.isSettled.settled h q i _ _) count (by rw [count']; decide)
  have run := Run.init.append s₁.steps
  -- the step is the commit of the Revocation
  have revokes : ∃ domain, Revokes domain (Sample.relay.lookupHash Sample.alice.subject) S₁ S₂ := by
    obtain e | ⟨_, _, _, _, e, _, ch⟩ := run.inv.step_change s
    · exact absurd (e ▸ before) after
    cases e
    obtain e | ⟨c, e⟩ := ch.of_revocation read
    · exact absurd (e ▸ before) after
    have rev := c.revokes e
    have msg := c.message.symm.trans read
    simp only [Sample.Login.revocationMessage, Option.some.injEq, MatrixMessage.revocation.injEq] at msg
    rw [msg.2.2.2.1] at rev
    exact ⟨_, rev⟩
  obtain ⟨domain, revokes⟩ := revokes
  obtain ⟨m, mem, isPost⟩ := List.any_eq_true.mp posts
  obtain ⟨pre, S₃, S₄, s₃, post⟩ := q.action (C := RevokesSettled Sample.relay)
    (Sample.env 0 200000 Sample.down) .tick (m := m) trivial (by rw [hd, hs, Sample.call_tick hT]; exact closed') (spawn ..) (fun _ _ _ _ => trivial)
    (by rw [hd, hs]; exact mem)
  obtain ⟨db, l', ⟨op, answer, es⟩⟩ := m
  cases op with
  | request req =>
    exact ⟨_, S₁, _, S₂, _, S₃, _, _, req, answer, es, S₄, domain, run, ok, s, revokes,
      later.steps.append s₃.steps, post,
      revocation_final Crates.stub_hmac run ok s revokes (later.steps.append s₃.steps) post⟩
  | _ => cases isPost

/-- The delivery after Alice's Revocation. -/
def postedLate : { T : Env.Final Result //
    Sample.ticked Sample.revoked.db Sample.revoked.seqs 200000 = T ∧ T.loc.log = [] ∧
    (∀ row ∈ Sample.consented.db.sessions.rows, row.domain = "a.io") ∧
    Sample.consented.db.jobs.rows.length = 1 ∧ Sample.revoked.db.jobs.rows.length = 2 ∧
    ∃ j ∈ Sample.consented.db.jobs.rows, ∃ m ∈ (Sample.env 0 200000 Sample.down).trace Sample.tickProg
      Sample.revoked.db Sample.revoked.seqs {},
      m.act.op = .request (j.post (Sample.assertion.toBytes .stub)) } :=
  ⟨_, rfl, by decide +kernel⟩

/-- An assertion that was enqueued before the Revocation of Alice is posted after it. -/
theorem assertion_posted_after_revocation : ¬ ∀ ls S₁ lb S₂ ls' S₃ t input l req answer es S₄ domain x,
    Run Sample.relay ls S₁ → Step Sample.relay S₁ lb S₂ →
    Revokes domain (Sample.relay.lookupHash x) S₁ S₂ → Steps Sample.relay S₂ ls' S₃ →
    Step Sample.relay S₃ (.act t input l ⟨.request req, answer, es⟩) S₄ →
    ∀ j ∈ S₁.db.jobs, j.isFor Sample.relay .assertion domain x → ∀ payload, req ≠ j.post payload := by
  intro claim
  have read := Sample.alice_revocation "$revocation"
  obtain ⟨T, hT, closed, domains, count, count', j, hj, m, mem, op⟩ := postedLate
  have content := List.mem_map_of_mem (f := Sample.content) hj
  rw [Sample.consented_jobs] at content
  obtain ⟨J, hJ⟩ : ∃ J, Sample.consented.db.jobs.rows = J := ⟨_, rfl⟩
  obtain ⟨R, hR⟩ : ∃ R, Sample.consented.db.sessions.rows = R := ⟨_, rfl⟩
  rw [hJ] at count hj
  rw [hR] at domains
  obtain ⟨ls, S₁, l, a, S₂, ls', S, r, ⟨jobs, sessions⟩, s, after, later, q, hd, hs⟩ :=
    Sample.reaches_plain.turn (P := fun db => db.jobs.rows = J ∧ db.sessions.rows = R)
      (F := Sample.revoked) (Sample.Login.call_revocation read rfl) rfl Sample.revoked_closed ⟨hJ, hR⟩
      fun h => by rw [h.1, count] at count'; nomatch count'
  have revokes : Revokes "a.io" (Sample.relay.lookupHash Sample.alice.subject) S₁ S₂ := by
    obtain e | ⟨_, _, _, _, e, _, ch⟩ := r.inv.step_change s
    · exact absurd (e ▸ ⟨jobs, sessions⟩) after
    cases e
    obtain e | ⟨c, e⟩ := ch.of_revocation read
    · exact absurd (e ▸ ⟨jobs, sessions⟩) after
    have rev := c.revokes e
    have msg := c.message.symm.trans read
    simp only [Sample.Login.revocationMessage, Option.some.injEq, MatrixMessage.revocation.injEq] at msg
    have row : c.session ∈ R := by
      rw [← sessions]
      exact c.mem
    rwa [msg.2.2.2.1, domains _ row] at rev
  obtain ⟨pre, S₃, S₄, s₃, post⟩ := q.action (C := fun _ _ => True) (Sample.env 0 200000 Sample.down)
    .tick (m := m) trivial (by rw [hd, hs, Sample.call_tick hT]; exact closed) trivial
    (fun _ _ _ _ => trivial) (by rw [hd, hs]; exact mem)
  have isFor : j.isFor Sample.relay .assertion "a.io" Sample.alice.subject := by
    exact (Sample.isFor_assertion (List.mem_singleton.mp content)).mpr rfl
  obtain ⟨db, l', ⟨op', answer, es⟩⟩ := m
  cases op
  exact claim _ S₁ _ S₂ _ S₃ _ _ _ _ answer es S₄ "a.io" Sample.alice.subject r s revokes
    (later.append s₃.steps) post j (by rw [← Table.mem_rows, jobs]; exact hj) isFor _ rfl

end WebLoginRelay
