import WebLoginRelay.Properties.Timestamps
import WebLoginRelay.System.Reached

/-!
# The lifetime of a session

The window of a session is at most five minutes long, and nothing is done for it after its `exp`. But no
check of the relay compares its own clock with `iat`: the phone does that when it scans the QR code. A site
that registers a window of next week has it accepted, and a phone with the clock of next week can use it.
-/

namespace WebLoginRelay
open Text Txn Relay

variable {st : AppState} {ls : List Label} {S S' : Sys} {lb : Label}

/-- The time the phone puts into a Request or a Consent. -/
def MatrixMessage.sentAt? : MatrixMessage → Option Int64
  | .request _ _ sentAt _ => some sentAt
  | .consent _ _ sentAt .. => some sentAt
  | _ => none

/-- What was done stays done. -/
lemma mem_past_run {α : Type} {input : Input} (p : Prog Op Op.Resp α) {l : Local} {a : Act}
    (h : a ∈ l.past) :
    Prog.wp (Local.PossIn st input) Local.after (fun _ _ => True) p (fun _ l => a ∈ l.past) l := by
  induction p generalizing l with
  | ret _ => exact h
  | req o k ih => exact fun r c _ => ⟨trivial, ih r (List.mem_append_left _ h)⟩

/-- A registration is accepted at a time before its `exp`, if its fields pass their checks. -/
lemma registerSession_accepts {request : RegistrationRequest} :
    Prog.wp (Local.PossIn st (.register request)) Local.after (fun _ _ => True)
      (registerSession st request).run
      (fun r l => (∃ a, r = .ok a) →
        request.validate = .ok () ∧ ∃ now, ReadClock l.past now ∧ now < request.exp) {} := by
  unfold registerSession
  cases valid : request.validate with
  | error e => exact fun ⟨_, h⟩ => nomatch h
  | ok u =>
    refine (Prog.wp_bind _ _ _).mpr fun (now : Int64) a ⟨es, e, db, seqs, seqs', _, s⟩ => ⟨trivial, ?_⟩
    subst e
    cases s
    change Prog.wp _ _ _ (ExceptT.run (ite (request.exp ≤ now) _ _)) _ _
    split
    · exact fun ⟨_, h⟩ => nomatch h
    · rename_i past
      have clock : ⟨.now, now, []⟩ ∈ (Local.after {} ⟨.now, now, []⟩).past := List.mem_singleton_self _
      exact Prog.wp_mono _ _ _ (fun _ l mem _ => ⟨rfl, now, mem, Int64.not_le.mp past⟩) (mem_past_run _ clock)

/-- A call that accepts a registration has done so at such a time. -/
lemma Run.accepted (r : Run st ls S) {t request response l}
    (h : S.tasks t = some ⟨.register request, some (.ret (.registered (.ok response))), l⟩) :
    request.validate = .ok () ∧ ∃ now, ReadClock l.past now ∧ now < request.exp := by
  have w := r.within (A := fun _ _ => True) (Q := fun result l => (∃ a, result = .registered (.ok a)) →
    request.validate = .ok () ∧ ∃ now, ReadClock l.past now ∧ now < request.exp) ?_ h
  · exact w ⟨response, rfl⟩
  · rw [Input.prog, map_eq_pure_bind, Prog.wp_bind]
    refine Prog.wp_mono _ _ _ (fun result l h => ?_) registerSession_accepts
    rintro ⟨a, e⟩
    refine h ?_
    cases e
    exact ⟨a, rfl⟩

/-- What an inbound event changes, it changes for a session found by its message. -/
structure UsedInTime (st : AppState) (m : MatrixMessage) (sentAt : Int64) (past : List Act) (row : SessionRow) :
    Prop where
  found : ∃ filter, m.lookup? st = some filter ∧ filter.accepts row
  window : row.exp.toInt ≤ row.iat.toInt + 300000
  relay : ∃ now, ReadClock past now ∧ now.toInt ≤ row.exp.toInt
  phone : row.iat.toInt - 30000 ≤ sentAt.toInt ∧ sentAt.toInt ≤ row.exp.toInt

/-- A Request or a Consent changes nothing but for such a session. -/
lemma Run.usedInTime (r : Run st ls S) (s : Step st S lb S') {t event l a m sentAt}
    (e : lb = .act t (.inbound event) l a) (msg : event.message? st = some m) (sent : m.sentAt? = some sentAt)
    (changed : S'.db ≠ S.db) : ∃ row ∈ S.db.sessions, UsedInTime st m sentAt l.past row := by
  subst e
  have le {row : SessionRow} {now : Int64} (h : ¬ row.exp < now) : now.toInt ≤ row.exp.toInt :=
    Int64.le_iff_toInt_le.mp (Int64.not_lt.mp h)
  have consent (c : ConsentCheck st event l.past) (mem : c.session ∈ S.db.sessions) :
      ∃ row ∈ S.db.sessions, UsedInTime st m sentAt l.past row := by
    cases msg.symm.trans c.message
    cases sent
    exact ⟨c.session, mem, ⟨_, rfl, c.found⟩, (r.represented.registered _ mem).window.2,
      ⟨c.now, c.clock, le c.unexpired⟩, (sentAtInQrWindow_iff ..).mp c.window⟩
  obtain same | ⟨_, _, _, _, e, _, ch⟩ := r.inv.step_change s
  · exact absurd same changed
  cases e
  generalize S'.db = db' at ch changed
  cases ch with
  | keep => exact absurd rfl changed
  | request c =>
    cases msg.symm.trans c.message
    cases sent
    exact ⟨c.session, c.mem, ⟨_, rfl, c.found⟩, (r.represented.registered _ c.mem).window.2,
      ⟨c.now, c.clock, le c.unexpired⟩, (sentAtInQrWindow_iff ..).mp c.window⟩
  | refuse c _ => exact consent c.toConsentCheck c.mem
  | approve c => exact consent c.toConsentCheck c.mem
  | revoke c =>
    cases msg.symm.trans c.message
    nomatch sent

/-- A registration is accepted at a time before its `exp`, which is at most five minutes after its `iat`;
and a Request or a Consent is acted on at a time of the relay up to `exp`, and a time of the phone between
`iat` less the skew and `exp`. -/
theorem session_lifetime (r : Run st ls S) :
    (∀ t request response l,
      S.tasks t = some ⟨.register request, some (.ret (.registered (.ok response))), l⟩ →
      request.exp.toInt ≤ request.iat.toInt + 300000 ∧ ∃ now, ReadClock l.past now ∧
        now.toInt < request.exp.toInt ∧
        (request.iat.toInt ≤ now.toInt + 30000 → request.exp.toInt ≤ now.toInt + 330000)) ∧
    ∀ t event l a S' m sentAt, Step st S (.act t (.inbound event) l a) S' → event.message? st = some m →
      m.sentAt? = some sentAt → S'.db ≠ S.db → ∃ row ∈ S.db.sessions, UsedInTime st m sentAt l.past row := by
  refine ⟨fun t request response l h => ?_, fun t event l a S' m sentAt s msg sent changed =>
    r.usedInTime s rfl msg sent changed⟩
  obtain ⟨valid, now, clock, unexpired⟩ := r.accepted h
  have window := (validateWindow_iff ..).mp (RegistrationRequest.validate_ok valid).2.2.2.1
  refine ⟨by omega, now, clock, Int64.lt_iff_toInt_lt.mp unexpired, fun _ => by omega⟩

/-- The Consent of Alice is acted on. -/
lemma Sample.consent_step : ∃ ls S l a S', Run relay ls S ∧
    Step relay S (.act 2 (.inbound (alice.consent "$consent" true)) l a) S' ∧ S'.db ≠ S.db := by
  have r : Reaches relay (fun _ _ => True) Sys.init 2 requestedLabels requested.db requested.seqs :=
    reaches_requested (fun _ _ _ => trivial) (fun _ _ _ _ _ => trivial) fun _ _ _ _ => trivial
  have effect : requested.db.jobs.rows.length = 0 ∧ consented.db.jobs.rows.length = 1 := by decide +kernel
  obtain ⟨ls, S, l, a, S', _, _, run, before, s, after, _⟩ :=
    r.turn (P := fun db => db.jobs.rows.length = 0) (F := consented) (alice_valid.call_consent rfl) rfl
      calls_closed.2.2 effect.1 (by rw [effect.2]; decide)
  exact ⟨ls, S, l, a, S', run, s, fun e => after (e ▸ before)⟩

/-- The Consent of Alice. -/
theorem session_lifetime_alice : ∃ ls S l a S', Run Sample.relay ls S ∧
    Step Sample.relay S (.act 2 (.inbound (Sample.alice.consent "$consent" true)) l a) S' ∧ S'.db ≠ S.db ∧
    ∃ row ∈ S.db.sessions, UsedInTime Sample.relay (Sample.alice.consentMessage true) Sample.loginTime l.past row := by
  obtain ⟨ls, S, l, a, S', run, s, changed⟩ := Sample.consent_step
  exact ⟨ls, S, l, a, S', run, s, changed, (session_lifetime run).2 2 _ l a S' _ _ s
    (Sample.alice_valid.consent "$consent" true) rfl changed⟩

namespace Sample

/-- A window of next week. -/
def nextWeek : RegistrationRequest := alice.windowed 604800000 605100000

/-- A window of next week is a valid one. -/
lemma nextWeek_window : validateWindow 604800000 605100000 = .ok () := rfl

/-- A Request from a phone whose clock shows next week. -/
def earlyMessage : MatrixMessage := .request alice.sessionId alice.nonce 604800000 alice.domain

/-- The event of this Request. -/
def early : InboundEvent := event "$early" alice.user earlyMessage

/-- The relay reads this Request. -/
lemma early_read : early.message? relay = some earlyMessage := by
  refine message_event alice_valid.user alice_valid.room ?_ ?_
  · rw [earlyMessage, MatrixMessage.validateInbound, alice_valid.sessionId, alice_valid.nonce, alice_valid.domain]
    rfl
  · exact MatrixMessage.short_of_bounds Crates.stub_compact (k := 9) (b := 6 * 253 + 2) rfl (by simp)
      (by simp; decide) (by decide +kernel) (by simp [maxDecodedBody])

/-- The session of next week is registered now. -/
def nextWeekRegistered : { F : Env.Final Result //
    (env alice.seed loginTime alice.site).run
      (Result.registered <$> (storeSession relay nextWeek alice.metadata).run) Db.empty {} alice.verified = F ∧
    F.loc.log = [] ∧ (∃ response, F.result = .registered (.ok response)) ∧
    F.db.sessions.rows.map (fun row => (row.state, row.iat)) = [(.siteRegistered, 604800000)] } :=
  ⟨_, rfl, by decide +kernel, ⟨_, rfl⟩, by decide +kernel⟩

/-- The Request of next week is acted on now. -/
def earlyBound : { F : Env.Final Result //
    (env 11 loginTime alice.site).run (Result.handled <$> (processRequest relay early alice.sessionId alice.nonce
      604800000 alice.domain).run) nextWeekRegistered.1.db nextWeekRegistered.1.seqs {} = F ∧ F.loc.log = [] ∧
    F.db.sessions.rows.map (fun row => (row.state, row.iat)) = [(.challengeSent, 604800000)] } :=
  ⟨_, rfl, by decide +kernel, by decide +kernel⟩

/-- The registration of next week, evaluated. -/
lemma call_nextWeek : (env alice.seed loginTime alice.site).call relay (.register nextWeek) Db.empty {} =
    nextWeekRegistered.1 := by
  have unexpired : loginTime < (605100000 : Int64) := by decide
  exact (alice_valid.call_windowed Db.empty {} nextWeek_window unexpired).trans nextWeekRegistered.2.1

/-- The Request that comes at once, evaluated. -/
lemma call_early : (env 11 loginTime alice.site).call relay (.inbound early) nextWeekRegistered.1.db
    nextWeekRegistered.1.seqs = earlyBound.1 := by
  rw [Env.call, Input.prog_request early_read]
  exact earlyBound.2.1

/-- The clock of a call shows the time of a login. -/
lemma loginTime_of_clock (r : RunWhen relay AtLoginTime ls S) {t task} (h : S.tasks t = some task) {now : Int64}
    (clock : ReadClock task.loc.past now) : now = loginTime := by
  obtain ⟨l, mem⟩ := r.run.past h clock
  obtain ⟨_, atLogin⟩ := r.holds mem
  exact atLogin _ _ _ _ _ rfl

end Sample

/-- A site registers a session of next week, and a phone with that clock is sent its challenge. -/
theorem next_week_is_used_now :
    (¬ ∀ ls S, Run Sample.relay ls S → ∀ t request response l,
      S.tasks t = some ⟨.register request, some (.ret (.registered (.ok response))), l⟩ →
      ∀ now, ReadClock l.past now → request.exp.toInt ≤ now.toInt + 330000) ∧
    ¬ ∀ ls S, Run Sample.relay ls S → ∀ t event l a S' m sentAt,
      Step Sample.relay S (.act t (.inbound event) l a) S' → event.message? Sample.relay = some m →
      m.sentAt? = some sentAt → S'.db ≠ S.db → ∀ row ∈ S.db.sessions,
      (∃ filter, m.lookup? Sample.relay = some filter ∧ filter.accepts row) → ∀ now, ReadClock l.past now →
      row.iat.toInt - 30000 ≤ now.toInt := by
  obtain ⟨closed, ⟨response, accepted⟩, stored⟩ := Sample.nextWeekRegistered.2.2
  obtain ⟨closed', bound⟩ := Sample.earlyBound.2.2
  refine ⟨fun claim => ?_, fun claim => ?_⟩
  · have call : (Sample.env Sample.alice.seed Sample.loginTime Sample.alice.site).call Sample.relay
        (.register Sample.nextWeek) Sys.init.db Sys.init.seqs = Sample.nextWeekRegistered.1 := Sample.call_nextWeek
    have wf : (Input.register Sample.nextWeek).WellFormed := trivial
    obtain ⟨S, steps, _, _, task, _⟩ := Sys.Quiet.init.call
      (Sample.env Sample.alice.seed Sample.loginTime Sample.alice.site) wf (by rw [call]; exact closed)
      (Sample.atLoginTime_spawn _ _ _) fun m hm S _ => Sample.atLoginTime_act hm _ _ _
    have run := RunWhen.init.append steps
    have result := task
    rw [call, accepted] at result
    obtain ⟨_, now, clock, _⟩ := run.run.accepted result
    have le := claim _ S run.run _ _ _ _ result now clock
    rw [Sample.loginTime_of_clock run result clock] at le
    exact absurd le (by decide)
  · have r : Reaches Sample.relay Sample.AtLoginTime Sys.init 1 _ Sample.nextWeekRegistered.1.db
        Sample.nextWeekRegistered.1.seqs :=
      Reaches.init.call Sample.call_nextWeek trivial Sample.nextWeekRegistered.2.2.1
        (fun S => Sample.atLoginTime_spawn S 0 _) fun m hm _ _ _ _ => Sample.atLoginTime_act hm _ _ _
    obtain ⟨ls, S, l, a, S', _, _, steps, before, _, s, after, _⟩ :=
      r.turnWhen (P := fun db => db.sessions.rows.map (fun row => (row.state, row.iat)) =
        [(.siteRegistered, 604800000)]) Sample.call_early rfl closed' (fun S => Sample.atLoginTime_spawn S 1 _)
        (fun m hm _ _ _ _ => Sample.atLoginTime_act hm _ _ _) stored (by rw [bound]; decide)
    have run := RunWhen.init.append steps
    have changed : S'.db ≠ S.db := fun e => after (e ▸ before)
    obtain ⟨row, hr, used⟩ := run.run.usedInTime s rfl Sample.early_read rfl changed
    obtain ⟨now, clock, _⟩ := used.relay
    have le := claim _ S run.run _ _ l a S' _ _ s Sample.early_read rfl changed row hr used.found now clock
    have iat : row.iat = 604800000 := by
      have mem := List.mem_map_of_mem (f := fun row : SessionRow => (row.state, row.iat)) hr
      rw [before] at mem
      exact congrArg Prod.snd (List.mem_singleton.mp mem)
    obtain ⟨_, _, task, _⟩ := s.act_inv
    rw [iat, Sample.loginTime_of_clock run task clock] at le
    exact absurd le (by decide)

end WebLoginRelay
