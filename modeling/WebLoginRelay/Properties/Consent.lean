import WebLoginRelay.Samples.Runs
import WebLoginRelay.System.Tables

/-!
# One consent per challenge

An assertion leaves its `jti` in the row of its session, and no operation takes it out again. But
`process_consent` does not look at it: a second Consent with an event id of its own passes every check
the first one has passed. What holds is that a session has one assertion as long as no Consent is
approved on a session that has one.
-/

namespace WebLoginRelay
open Text Txn

variable {st : AppState} {input : Input} {past : List Act} {db db' : Db}

/-- The job is an assertion for this session. -/
def DeliveryJob.isAssertionOf (domain sessionId : String) (j : DeliveryJob) : Bool :=
  j.kind == .assertion && j.domain == domain && j.sessionId == sessionId

/-- Which session a job asserts does not change. -/
lemma DeliveryJob.isAssertionOf_fixed {domain sessionId : String} (j : DeliveryJob) :
    j.fixed.isAssertionOf domain sessionId = j.isAssertionOf domain sessionId := rfl

/-- An approved Consent for this session is committed only while it has no assertion. -/
def FirstConsent (st : AppState) (domain sessionId : String) (S : Sys) : Label → Prop
  | .act _ (.inbound event) l a => a.Effective (.inbound event) l →
    ∀ nonce sentAt displayName challenge keyId signature,
      event.message? st =
        some (.consent sessionId nonce sentAt true displayName challenge keyId signature) →
      ∀ row ∈ S.db.sessions, row.domain = domain → row.sessionId = sessionId →
        row.nonceHash = st.lookupHash nonce → row.assertionJti = none
  | _ => True

/-- A session with an assertion keeps one. -/
lemma Change.assertion_stays (ch : Change st input past db db') {domain sessionId : String}
    (h : ∃ r ∈ db.sessions, r.domain = domain ∧ r.sessionId = sessionId ∧ r.assertionJti ≠ none) :
    ∃ r ∈ db'.sessions, r.domain = domain ∧ r.sessionId = sessionId ∧ r.assertionJti ≠ none := by
  obtain ⟨r, hr, hd, hs, hj⟩ := h
  obtain ⟨r', hr', rfl | ⟨set, _, rfl⟩⟩ := ch.session_stays hr
  · exact ⟨r', hr', hd, hs, hj⟩
  · exact ⟨_, hr', hd, hs, SessionSet.on_assertionJti hj⟩

/-- At most one assertion, and none without a trace in the session. -/
structure SingleAssertion (db : Db) (domain sessionId : String) : Prop where
  count : db.countJobs (·.isAssertionOf domain sessionId) ≤ 1
  trace : 0 < db.countJobs (·.isAssertionOf domain sessionId) →
    ∃ r ∈ db.sessions, r.domain = domain ∧ r.sessionId = sessionId ∧ r.assertionJti ≠ none

/-- A change that queues no assertion for the session keeps this. -/
lemma SingleAssertion.of_same {domain sessionId : String} (h : SingleAssertion db domain sessionId)
    (ch : Change st input past db db')
    (e : db'.countJobs (·.isAssertionOf domain sessionId) =
      db.countJobs (·.isAssertionOf domain sessionId)) : SingleAssertion db' domain sessionId := by
  refine ⟨?_, fun pos => ch.assertion_stays (h.trace ?_)⟩
  · rw [e]
    exact h.count
  · rwa [e] at pos

/-- A job counts for the session of its Consent only. -/
lemma Mint.isAssertionOf {event j domain sessionId} (c : Mint st event past db) (hj : c.job = some j)
    (h : j.isAssertionOf domain sessionId) : c.session.domain = domain ∧ c.sessionId = sessionId := by
  obtain ⟨id, now, rfl⟩ := c.job_eq hj
  simp only [DeliveryJob.isAssertionOf, NewJob.row, Mint.newJob, Bool.and_eq_true, beq_iff_eq] at h
  exact ⟨h.1.2, h.2⟩

/-- A Consent on a session without an assertion mints its first one. -/
lemma SingleAssertion.mint {event domain sessionId} (h : SingleAssertion db domain sessionId)
    (c : Mint st event past db)
    (first : c.session.domain = domain → c.sessionId = sessionId → c.session.assertionJti = none) :
    SingleAssertion c.result domain sessionId := by
  by_cases mine : ∃ j, c.job = some j ∧ j.isAssertionOf domain sessionId
  · obtain ⟨j, hj, isOf⟩ := mine
    obtain ⟨rfl, rfl⟩ := c.isAssertionOf hj isOf
    have found := SessionFilter.accepts_sessionAndNonce.mp c.found
    -- an earlier assertion would be in the row of the session
    have zero : db.countJobs (·.isAssertionOf c.session.domain c.sessionId) = 0 := by
      by_contra ne
      obtain ⟨r, hr, hd, hs, traced⟩ := h.trace (Nat.pos_of_ne_zero ne)
      obtain rfl := session_eq_of_key hr c.mem hd (hs.trans found.1.symm)
      exact traced (first rfl rfl)
    refine ⟨?_, fun _ => ⟨c.set.on c.session, ?_, rfl, found.1, ?_⟩⟩
    · rw [c.countJobs, zero, hj, Nat.zero_add]
      exact List.countP_le_length
    · rw [← Table.mem_rows, c.result_sessions]
      exact (Db.mem_updateSession ..).mpr ⟨c.session, c.mem, if_pos rfl⟩
    · exact Option.some_ne_none _
  · refine h.of_same (.approve c) ?_
    rw [c.countJobs, List.countP_eq_zero.mpr, Nat.add_zero]
    intro j hj isOf
    exact mine ⟨j, Option.mem_toList.mp hj, isOf⟩

/-- A step that meets the condition keeps at most one assertion. -/
lemma SingleAssertion.step {ls S lb S' domain sessionId} (r : Run st ls S) (s : Step st S lb S')
    (first : FirstConsent st domain sessionId S lb) (h : SingleAssertion S.db domain sessionId) :
    SingleAssertion S'.db domain sessionId := by
  obtain e | ⟨t, input, l, a, rfl, eff, ch⟩ := r.inv.step_change s
  · rwa [e]
  have ch' := ch
  generalize S'.db = db' at ch ch'
  cases ch with
  | keep => exact h
  | register c => exact h.of_same ch' rfl
  | request c => exact h.of_same ch' rfl
  | refuse c _ => exact h.of_same ch' rfl
  | approve c =>
    have msg := c.message
    rw [c.isApproved] at msg
    have found := SessionFilter.accepts_sessionAndNonce.mp c.found
    refine h.mint c fun hd hs => ?_
    rw [hs] at msg found
    exact first eff _ _ _ _ _ _ msg c.session c.mem hd found.1 found.2
  | revoke c =>
    refine h.of_same ch' ?_
    rw [c.countJobs, List.countP_eq_zero.mpr, Nat.add_zero]
    intro j hj isOf
    obtain ⟨id, now, rfl⟩ := c.job_eq (Option.mem_toList.mp hj)
    cases isOf
  | deliver c => exact h.of_same ch' rfl
  | claim due => exact h.of_same ch' (countJobs_replay DeliveryJob.isAssertionOf_fixed _ _)
  | mark _ _ _ _ => exact h.of_same ch' (countJobs_updateJob DeliveryJob.isAssertionOf_fixed _ _)

/-- In a run where every approved Consent for a session is committed while it has no assertion, the session
never has two. -/
theorem one_consent_per_challenge {ls S} (domain sessionId : String)
    (r : RunWhen st (FirstConsent st domain sessionId) ls S) : S.db.countJobs (·.isAssertionOf domain sessionId) ≤ 1 := by
  have single : SingleAssertion S.db domain sessionId := by
    induction r with
    | init => exact ⟨Nat.zero_le _, fun pos => absurd pos (Nat.lt_irrefl 0)⟩
    | step r first s ih => exact ih.step r.run s first
  exact single.count

/-- The login of Alice is such a run. -/
theorem one_consent_per_challenge_alice : ∃ ls S,
    RunWhen Sample.relay (FirstConsent Sample.relay "a.io" "session-of-alice") ls S ∧
    S.db.sessions.rows.length = 1 ∧
    S.db.countJobs (·.isAssertionOf "a.io" "session-of-alice") ≤ 1 := by
  have first : Sample.consentTrace.all (fun m => m.act.op != .commit ||
      m.db.sessions.rows.all fun row => row.assertionJti.isNone) := by
    decide +kernel
  have r := Sample.reaches_requested (C := FirstConsent Sample.relay "a.io" "session-of-alice")
    (fun _ _ _ => trivial) (fun _ _ _ _ _ => trivial) fun S n l a _ _ _ _ _ _ _ msg => by
      rw [Sample.alice_valid.request] at msg
      nomatch msg
  have r' := Sample.reaches_consented r (fun _ _ _ => trivial) fun m hm S S₁ _ i => by
    intro eff _ _ _ _ _ _ _ row hr _ _ _
    have h := List.all_eq_true.mp first m hm
    rw [eff.commit] at h
    rw [i.db] at hr
    exact Option.isNone_iff_eq_none.mp (List.all_eq_true.mp h row hr)
  obtain ⟨S, run, _, hd, _⟩ := r'.run
  refine ⟨_, S, run, ?_, one_consent_per_challenge _ _ run⟩
  rw [hd]
  decide +kernel

/-- Alice's second Consent. -/
def twice : { F : Env.Final Result //
    Sample.alice.consented Sample.consented.db Sample.consented.seqs 14 "$consent-2" true = F ∧
    F.loc.log = [] ∧ F.db.countJobs (·.isAssertionOf "a.io" "session-of-alice") = 2 } :=
  ⟨_, rfl, by decide +kernel⟩

/-- A second Consent with an event id of its own mints a second assertion for the session. -/
theorem second_consent_mints : ¬ ∀ ls S, Run Sample.relay ls S → ∀ domain sessionId,
    S.db.countJobs (·.isAssertionOf domain sessionId) ≤ 1 := by
  intro claim
  obtain ⟨F, e, closed, count⟩ := twice
  obtain ⟨S, run, _, hd, _⟩ := (Sample.alice_valid.consents Sample.reaches_plain e closed
    (fun _ => trivial) fun _ _ _ _ _ _ => trivial).run
  have le := claim _ S run.run "a.io" "session-of-alice"
  rw [hd, count] at le
  exact absurd le (by decide)

end WebLoginRelay
