import WebLoginRelay.Properties.Endings
import WebLoginRelay.Samples.Runs

/-!
# What a failed event leaves behind

Every handler commits at most once, and what can fail after that is its notice: a Request is bound, or a
Consent refused, before the outbox has been asked. A commit can also take effect and be answered by an
error. Apart from these two, a call that fails or ignores its event leaves the tables as they were.
-/

namespace WebLoginRelay
open Text Txn

variable {st : AppState} {event : InboundEvent}

/-- What a call on an event has done when it returns. -/
def Settles (result : Result) (l : Local) : Prop :=
  match result with
  | .handled (.error _) => Undone l.past
  | .handled (.ok .ignored) => Clean l.past
  | _ => True

/-- Every call on an event ends so. -/
lemma Run.settles (compact : st.crates.JsonCompact) (shape : st.crates.Base64Shape) {ls S}
    (r : Run st ls S) {t result l} (h : S.tasks t = some ⟨.inbound event, some (.ret result), l⟩) :
    Settles result l := by
  refine r.within (Q := Settles) (Relay.Ends.call (f := .handled) (ends_handleInbound compact shape)
    (fun a l tidy => ?_) fun _ _ undone => undone) h
  cases a with
  | ignored => exact tidy rfl
  | sent => trivial

/-- The outbox refuses this call no notice after its commit, and no commit of it that took effect is
answered by an error. -/
def Unstranded (ls : List Label) (t : Nat) : Prop :=
  ∀ input l a, .act t input l a ∈ ls → ¬ a.Strands l.past

/-- Then a call that fails or ignores its event has committed nothing but reads. -/
lemma Run.clean (compact : st.crates.JsonCompact) (shape : st.crates.Base64Shape) {ls S}
    (r : Run st ls S) {t result l}
    (h : S.tasks t = some ⟨.inbound event, some (.ret (.handled result)), l⟩) (ok : Unstranded ls t)
    (bad : (∃ e, result = .error e) ∨ result = .ok .ignored) : Clean l.past := by
  have settles := r.settles compact shape h
  obtain ⟨e, rfl⟩ | rfl := bad
  · obtain clean | ⟨pre, a, post, past, strands⟩ := settles
    · exact clean
    · obtain ⟨l', same, label⟩ := r.past_order h past
      exact absurd (same ▸ strands) (ok _ l' a label)
  · exact settles

/-- An action of a call on an event that commits nothing but reads writes nothing. -/
lemma Step.unchanged {S S' : Sys} {t l a} (inv : Sys.Inv st S)
    (s : Step st S (.act t (.inbound event) l a) S') (none : ¬ a.Commits) : S'.db = S.db := by
  obtain ⟨k, seqs, task, o, e, _⟩ := s.act_inv
  have ok := (inv.act task o).1
  rw [e]
  obtain ⟨op, answer, es⟩ := a
  cases op with
  | commit =>
    refine replay_of_reads fun e he => ?_
    by_contra write
    exact none ⟨rfl, e, he, by simpa using write⟩
  | auto au => nomatch ok.of_auto
  | _ => rfl

/-- No step of the call on this event changes the tables. -/
def LeavesTables (st : AppState) (ls : List Label) (S : Sys) (t : Nat) (event : InboundEvent) : Prop :=
  ∀ pre l a post S₁ S₂, ls = pre ++ .act t (.inbound event) l a :: post → Run st pre S₁ →
    Step st S₁ (.act t (.inbound event) l a) S₂ → Steps st S₂ post S → S₂.db = S₁.db

/-- In every run, a call on an event that fails or ignores it leaves the tables as they were, provided
that no notice of this call is refused after its commit, and no commit of it that took effect is answered
by an error. -/
theorem failed_event_leaves_tables (compact : st.crates.JsonCompact) (shape : st.crates.Base64Shape)
    {ls S} (r : Run st ls S) {t result l}
    (h : S.tasks t = some ⟨.inbound event, some (.ret (.handled result)), l⟩) (ok : Unstranded ls t)
    (bad : (∃ e, result = .error e) ∨ result = .ok .ignored) : LeavesTables st ls S t event := by
  intro pre l' a post S₁ S₂ e r₁ s rest
  obtain ⟨_, _, _, _, _, done⟩ := s.act_inv
  have here : ∃ task, S₂.tasks t = some task ∧ task.input = .inbound event ∧ a ∈ task.loc.past :=
    ⟨_, done, rfl, List.mem_append_right _ (List.mem_singleton_self a)⟩
  obtain ⟨task, ht, _, mem⟩ := rest.past_keep (r₁.inv.step s) here
  cases ht.symm.trans h
  exact s.unchanged r₁.inv (r.clean compact shape h ok bad a mem)

/-- Neither a notice that was refused nor a commit that was answered by an error. -/
def Moment.isAnswered (m : Moment) : Bool :=
  match m.act with
  | ⟨.sendNotice .., Except.error _, _⟩ => false
  | ⟨.commit, Except.error _, _⟩ => false
  | _ => true

/-- A commit that is answered strands nothing. -/
lemma Moment.isAnswered.unstranded {m : Moment} (h : m.isAnswered) (past : List Act) :
    ¬ m.act.Strands past := by
  obtain ⟨_, _, ⟨op, answer, es⟩⟩ := m
  cases op with
  | sendNotice roomId body =>
    cases answer with
    | ok _ => exact id
    | error _ => nomatch h
  | commit =>
    cases answer with
    | ok _ => exact id
    | error _ => nomatch h
  | _ => exact id

/-- The call on an event returned that it was ignored, or an error. -/
def Result.isIgnored : Result → Bool
  | .handled (.ok .ignored) => true
  | _ => false

def Result.isFailed : Result → Bool
  | .handled (.error _) => true
  | _ => false

/-- The result of a call that ignores its event. -/
lemma Result.eq_of_isIgnored {result : Result} (h : result.isIgnored) : result = .handled (.ok .ignored) := by
  cases result with
  | handled r =>
    cases r with
    | ok r =>
      cases r with
      | ignored => rfl
      | sent => nomatch h
    | error _ => nomatch h
  | _ => nomatch h

/-- The result of a call on an event that fails. -/
lemma Result.eq_of_isFailed {result : Result} (h : result.isFailed) : ∃ e, result = .handled (.error e) := by
  cases result with
  | handled r =>
    cases r with
    | ok _ => nomatch h
    | error e => exact ⟨e, rfl⟩
  | _ => nomatch h

/-- Alice's Request comes before her session is registered. -/
def early : { T : Env.Final Result // Sample.alice.requested Db.empty {} = T ∧ T.loc.log = [] ∧
    T.result.isIgnored ∧ ((Sample.env (Sample.alice.seed + 1) Sample.loginTime Sample.alice.site).trace
      Sample.alice.requestProg Db.empty {} {}).all Moment.isAnswered } :=
  ⟨_, rfl, by decide +kernel⟩

/-- The Request is ignored, and leaves the tables as they were. -/
theorem failed_event_leaves_tables_early : ∃ ls S l, Run Sample.relay ls S ∧ Unstranded ls 0 ∧
    S.tasks 0 = some ⟨.inbound Sample.alice.request, some (.ret (.handled (.ok .ignored))), l⟩ ∧
    LeavesTables Sample.relay ls S 0 Sample.alice.request := by
  obtain ⟨T, hT, closed, ignored, answered⟩ := early
  have call : (Sample.env (Sample.alice.seed + 1) Sample.loginTime Sample.alice.site).call Sample.relay
      (.inbound Sample.alice.request) Sys.init.db Sys.init.seqs = T := Sample.alice_valid.call_request hT
  have closed' : ((Sample.env (Sample.alice.seed + 1) Sample.loginTime Sample.alice.site).call Sample.relay
      (.inbound Sample.alice.request) Sys.init.db Sys.init.seqs).loc.log = [] := by rw [call, closed]
  have wf : Input.WellFormed (.inbound Sample.alice.request) := rfl
  obtain ⟨S, s, _, _, task, _⟩ := Sys.Quiet.init.call (C := fun _ _ => True) _ wf closed' trivial
    fun _ _ _ _ => trivial
  rw [call, Result.eq_of_isIgnored ignored] at task
  have r := Run.init.append s.steps
  have ok : Unstranded ([] ++ (Sample.env (Sample.alice.seed + 1) Sample.loginTime Sample.alice.site).labels
      Sample.relay 0 (.inbound Sample.alice.request) Sys.init.db Sys.init.seqs) 0 := by
    intro input l a mem
    obtain e | ⟨m, hm, e⟩ := Env.mem_labels mem
    · cases e
    · cases e
      rw [Input.prog_request Sample.alice_valid.request] at hm
      exact Moment.isAnswered.unstranded (List.all_eq_true.mp answered m hm) _
  exact ⟨_, S, _, r, ok, task,
    failed_event_leaves_tables Crates.stub_compact Crates.stub_base64Shape r task ok (.inr rfl)⟩

/-- The outbox is down. -/
def refusing : Env :=
  { Sample.env (Sample.alice.seed + 1) Sample.loginTime Sample.alice.site with
    notice := fun _ => .error (.problem .internalError) }

/-- Alice's Request when the outbox is down. -/
def unsent : { T : Env.Final Result //
    refusing.run Sample.alice.requestProg Sample.registered.db Sample.registered.seqs {} = T ∧
    T.loc.log = [] ∧ T.result.isFailed ∧ (Sample.registered.db.sessions.rows.all (·.version == 0)) = true ∧
    (T.db.sessions.rows.all (·.version == 0)) = false } :=
  ⟨_, rfl, by decide +kernel⟩

/-- A Request whose challenge could not be sent fails, and leaves its session bound to the challenge. -/
theorem unsent_challenge_binds_session : ¬ ∀ ls S t event result l, Run Sample.relay ls S →
    S.tasks t = some ⟨.inbound event, some (.ret (.handled result)), l⟩ →
    ((∃ e, result = .error e) ∨ result = .ok .ignored) → LeavesTables Sample.relay ls S t event := by
  intro claim
  obtain ⟨T, hT, closed, failed, before, after⟩ := unsent
  have call : refusing.call Sample.relay (.inbound Sample.alice.request) Sample.registered.db
      Sample.registered.seqs = T := by
    rw [Env.call, Input.prog_request Sample.alice_valid.request, ← hT]
    rfl
  obtain ⟨S₀, r₀, q, hd, hs⟩ := (Sample.alice_valid.registers (C := fun _ _ => True) .init
    (F := Sample.registered) rfl Sample.calls_closed.1 (fun _ => trivial) fun _ _ _ => trivial).run
  rw [← hd, ← hs] at call
  have closed' : (refusing.call Sample.relay (.inbound Sample.alice.request) S₀.db S₀.seqs).loc.log =
      [] := by rw [call, closed]
  have wf : Input.WellFormed (.inbound Sample.alice.request) := rfl
  obtain ⟨S, s, hd', _, task, _⟩ := q.call (C := fun _ _ => True) refusing wf closed' trivial
    fun _ _ _ _ => trivial
  obtain ⟨e, result⟩ := Result.eq_of_isFailed failed
  rw [call, result] at task
  obtain ⟨pre, lb, post, S₁, S₂, labels, s₁, same, _, step, changed, s₂⟩ :=
    s.turn (P := fun S => (S.db.sessions.rows.all (·.version == 0)) = true) (hd ▸ before) (by
      rw [hd', call, after]
      exact Bool.false_ne_true)
  have label : lb ∈ refusing.labels Sample.relay 1 (.inbound Sample.alice.request) S₀.db S₀.seqs := by
    rw [labels]
    exact List.mem_append_right _ List.mem_cons_self
  obtain rfl | ⟨m, _, rfl⟩ := Env.mem_labels label
  · cases step with
    | spawn _ _ => exact changed same
  · have run := r₀.run.append s.steps
    have keeps := claim _ S 1 Sample.alice.request _ _ run task (.inl ⟨e, rfl⟩) _ m.loc m.act post S₁ S₂
      (by rw [labels, ← List.append_assoc]; rfl) (r₀.run.append s₁.steps) step s₂.steps
    rw [keeps] at changed
    exact changed same

end WebLoginRelay
