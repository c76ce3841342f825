import WebLoginRelay.Properties.Representation
import WebLoginRelay.Samples.Runs

/-!
# Times

Four times of three clocks are compared: those of the site (`iat`, `exp`), of the phone (`sentAt`) and of
the relay. Every comparison is the one of the exact integers, though some operations saturate, and together
they bound everything a login yields by the `exp` of its QR code.
-/

namespace WebLoginRelay
open Text Txn

variable {st : AppState} {input : Input} {past : List Act} {db : Db} {S S' : Sys} {lb : Label}
  {ls : List Label}

/-! ## Exact arithmetic -/

/-- A saturated integer lies between the bounds of an `i64`. -/
lemma toInt_saturate (n : Int) :
    (saturate n).toInt = max (-9223372036854775808) (min n 9223372036854775807) := by
  unfold saturate
  split
  · have low : Int64.minValue.toInt = -9223372036854775808 := rfl
    omega
  · split
    · have high : Int64.maxValue.toInt = 9223372036854775807 := rfl
      omega
    · rw [Int64.toInt_ofInt_of_le (by omega) (by omega)]
      omega

/-- The minimum of two times is that of the integers. -/
lemma toInt_min (a b : Int64) : (min a b).toInt = min a.toInt b.toInt := by
  have le : a ≤ b ↔ a.toInt ≤ b.toInt := Int64.le_iff_toInt_le
  change (if a ≤ b then a else b).toInt = _
  by_cases h : a ≤ b
  · rw [if_pos h]
    have := le.mp h
    omega
  · rw [if_neg h]
    have := mt le.mpr h
    omega

/-- The range of an `i64`. -/
lemma toInt_range (a : Int64) : -9223372036854775808 ≤ a.toInt ∧ a.toInt ≤ 9223372036854775807 := by
  have := a.le_toInt
  have := a.toInt_lt
  omega

/-- `validate_window` compares exact differences. -/
lemma validateWindow_iff (iat exp : Int64) : validateWindow iat exp = .ok () ↔
    iat.toInt < exp.toInt ∧ exp.toInt - iat.toInt ≤ 300000 := by
  refine ⟨fun h => ?_, fun ⟨lt, le⟩ => if_neg ?_⟩
  · have := window_of_validateWindow h
    omega
  · have max : maxTtlMs.toInt = 300000 := rfl
    rw [not_or, Int64.le_iff_toInt_le, Int64.lt_iff_toInt_lt, saturatingSub, toInt_saturate, max]
    omega

/-- `sent_at_in_qr_window` compares exact differences. -/
lemma sentAtInQrWindow_iff (sentAt iat exp : Int64) : sentAtInQrWindow sentAt iat exp = true ↔
    iat.toInt - 30000 ≤ sentAt.toInt ∧ sentAt.toInt ≤ exp.toInt := by
  have skew : clockSkewMs.toInt = 30000 := rfl
  have := toInt_range sentAt
  have := toInt_range iat
  rw [sentAtInQrWindow, Bool.and_eq_true, decide_eq_true_eq, decide_eq_true_eq, Int64.le_iff_toInt_le,
    Int64.le_iff_toInt_le, saturatingSub, toInt_saturate, skew]
  omega

/-- `challenge_expires_at` is the exact minimum. -/
lemma toInt_challengeExpiresAt (sentAt exp : Int64) :
    (challengeExpiresAt sentAt exp).toInt = min exp.toInt (sentAt.toInt + 300000) := by
  have max : maxTtlMs.toInt = 300000 := rfl
  have := toInt_range sentAt
  have := toInt_range exp
  rw [challengeExpiresAt, toInt_min, saturatingAdd, toInt_saturate, max]
  omega

/-! ## Rows that are written -/

/-- A row that is new in a step has been registered, or written by a call. -/
lemma Sys.Inv.row_written (inv : Sys.Inv st S) (s : Step st S lb S') {row : SessionRow}
    (mem : row ∈ S'.db.sessions) (new : row ∉ S.db.sessions) : ∃ t input l a, lb = .act t input l a ∧
      ((∃ old set, SessionWrite st input l.past S.db old set ∧ row = set.on old) ∨
        ∃ request, input = .register request ∧ ∃ c : Registration st request l.past S.db, row = c.row) := by
  obtain e | ⟨t, input, l, a, rfl, _, ch⟩ := inv.step_change s
  · exact absurd (e ▸ mem) new
  refine ⟨t, input, l, a, rfl, ?_⟩
  obtain ⟨old, hr, rfl | ⟨set, w, rfl⟩⟩ | registered := ch.session_origin mem
  · exact absurd hr new
  · exact .inl ⟨old, set, w, rfl⟩
  · exact .inr registered

/-- A Challenge that expires with its QR: it is sent at a time before the session expires, and can be
answered until the session does, for five minutes at most. -/
structure ExpiringChallenge (past : List Act) (exp now expiresAt : Int64) : Prop where
  clock : ReadClock past now
  unexpired : now.toInt ≤ exp.toInt
  lasts : now.toInt ≤ expiresAt.toInt
  expires : expiresAt.toInt = min exp.toInt (now.toInt + 300000)

/-- A challenge expires with its QR code. -/
lemma ExpiringChallenge.of_unexpired {exp now : Int64} (clock : ReadClock past now) (h : ¬ exp < now) :
    ExpiringChallenge past exp now (challengeExpiresAt now exp) := by
  rw [Int64.not_lt, Int64.le_iff_toInt_le] at h
  have e := toInt_challengeExpiresAt now exp
  exact ⟨clock, h, by omega, e⟩

/-- An assertion that expires with its QR. -/
structure ExpiringAssertion (a : RelayAssertion) (exp : Int64) : Prop where
  starts : a.nbf = a.iat
  lasts : a.iat.toInt ≤ a.exp.toInt
  expires : a.exp.toInt ≤ min exp.toInt (a.iat.toInt + 300000)

/-- An approved Consent on a session, in time for its challenge, that minted such an assertion. -/
structure TimelyConsent (st : AppState) (event : InboundEvent) (past : List Act) (row row' : SessionRow) :
    Prop where
  consent : ∃ sessionId nonce sentAt displayName challenge keyId signature, event.message? st =
      some (.consent sessionId nonce sentAt true displayName challenge keyId signature) ∧
    row.iat.toInt - 30000 ≤ sentAt.toInt ∧ ∃ now, ReadClock past now ∧ ∃ expiresAt,
      row.challengeExpiresAt = some expiresAt ∧ sentAt.toInt ≤ expiresAt.toInt ∧
      now.toInt ≤ expiresAt.toInt
  assertion : ∃ a ct, row'.assertionCiphertext = some ct ∧ Sealed st (a.toBytes st.crates) ct ∧
    ExpiringAssertion a row.exp

/-- No clock reading is within five minutes of the largest `i64`. -/
def FarClock (ls : List Label) : Prop :=
  ∀ t input l (now : Int64) es, .act t input l ⟨.now, now, es⟩ ∈ ls → now.toInt + 300000 ≤ 9223372036854775807

/-- A challenge that is stored has an expiry. -/
lemma SessionRow.Filled.expiry {r : SessionRow} (h : r.Filled st) (b : r.challengeHash.isSome) :
    ∃ t, r.challengeExpiresAt = some t := by
  obtain all | none := h.request
  · simp only [List.all_cons, List.all_nil, Bool.and_true, Bool.and_eq_true, beq_iff_eq] at all
    exact Option.isSome_iff_exists.mp all.2.2.2.2
  · simp [b] at none

/-- The checks of a Consent are those of its times. -/
lemma ConsentCheck.times {event} (c : ConsentCheck st event past) (filled : c.session.Filled st) :
    c.session.iat.toInt - 30000 ≤ c.sentAt.toInt ∧ c.now.toInt ≤ c.session.exp.toInt ∧
      ∃ expiresAt, c.session.challengeExpiresAt = some expiresAt ∧ c.sentAt.toInt ≤ expiresAt.toInt ∧
        c.now.toInt ≤ expiresAt.toInt := by
  obtain ⟨expiresAt, e⟩ := filled.expiry (Option.isSome_iff_exists.mpr ⟨_, c.challenge_eq⟩)
  have unexpired := c.unexpired
  rw [Int64.not_lt, Int64.le_iff_toInt_le] at unexpired
  have inTime := c.challengeOpen
  simp only [e, Option.any_some, Bool.or_eq_false_iff, decide_eq_false_iff_not, Int64.not_lt,
    Int64.le_iff_toInt_le] at inTime
  exact ⟨((sentAtInQrWindow_iff ..).mp c.window).1, unexpired, expiresAt, e, inTime⟩

/-- The assertion of an approved Consent expires with its session. -/
lemma Mint.expiring {event} (c : Mint st event past db) (far : c.now.toInt + 300000 ≤ 9223372036854775807) :
    ExpiringAssertion c.assertion c.session.exp := by
  have unexpired := c.unexpired
  rw [Int64.not_lt, Int64.le_iff_toInt_le] at unexpired
  obtain ⟨_, e⟩ := RelayAssertion.sign_ok c.assertion_eq
  have exp : (min c.session.exp (c.now + maxTtlMs)).toInt = min c.session.exp.toInt (c.now.toInt + 300000) := by
    have max : maxTtlMs.toInt = 300000 := rfl
    have := toInt_range c.now
    rw [toInt_min, Int64.toInt_add, max, Int.bmod_eq_of_le (by omega) (by omega)]
  rw [e]
  refine ⟨rfl, ?_, le_of_eq exp⟩
  change c.now.toInt ≤ (min c.session.exp (c.now + maxTtlMs)).toInt
  omega

/-! ## Everything expires with the QR -/

/-- What a step commits and what it sends expire with the QR of the session. -/
structure ExpiringStep (st : AppState) (S : Sys) (lb : Label) (S' : Sys) : Prop where
  /-- A session is bound to a challenge that expires with it. -/
  bound : ∀ row ∈ S'.db.sessions, row ∉ S.db.sessions → row.state = .challengeSent →
    ∃ t event l a now expiresAt, lb = .act t (.inbound event) l a ∧
      row.challengeExpiresAt = some expiresAt ∧ ExpiringChallenge l.past row.exp now expiresAt
  /-- The notice that carries the challenge says so; its `sentAt` is the time of the relay. -/
  sent : ∀ t event l roomId body r es sessionId nonce sentAt domain,
    lb = .act t (.inbound event) l ⟨.sendNotice roomId body, r, es⟩ →
    event.message? st = some (.request sessionId nonce sentAt domain) →
    ∃ (session : SessionRow) (now expiresAt : Int64) (challenge : String),
      ExpiringChallenge l.past session.exp now expiresAt ∧
      (MatrixMessage.challenge sessionId nonce now session.siteDisplayName domain
        session.requestedDisplayName challenge expiresAt).encode st.crates = .ok body ∧
      ∃ set t, ⟨.commit, Except.ok (), challengeLog event session t (st.lookupHash challenge) set⟩ ∈ l.past ∧
        set.challengeExpiresAt = some expiresAt
  /-- An approved Consent is in time, and so is the assertion it mints. -/
  approved : ∀ row ∈ S'.db.sessions, row ∉ S.db.sessions → row.state = .consentReceived →
    ∃ t event l a, lb = .act t (.inbound event) l a ∧
      ∃ old ∈ S.db.sessions, old.id = row.id ∧ old.exp = row.exp ∧ TimelyConsent st event l.past old row

/-- The clock of a call on a step is the clock of the run. -/
lemma FarClock.of_step (far : FarClock ls) (r : Run st ls S) (s : Step st S lb S') {t l a}
    (e : lb = .act t input l a) {now : Int64} (clock : ReadClock l.past now) :
    now.toInt + 300000 ≤ 9223372036854775807 := by
  subst e
  obtain ⟨_, _, task, _⟩ := s.act_inv
  obtain ⟨_, mem⟩ := r.past task clock
  exact far _ _ _ _ _ mem

/-- Every step of a run is such a step. -/
lemma Run.expiringStep (far : FarClock ls) (r : Run st ls S) (s : Step st S lb S') :
    ExpiringStep st S lb S' where
  bound row mem new state := by
    obtain ⟨t, input, l, a, rfl, ⟨old, set, w, rfl⟩ | ⟨request, rfl, c, rfl⟩⟩ := r.inv.row_written s mem new
    · cases w with
      | request c => exact ⟨t, _, l, a, c.now, _, rfl, rfl, .of_unexpired c.clock c.unexpired⟩
      | refuse c _ => nomatch state
      | approve c => nomatch state
      | revoke c => nomatch state
      | deliver c => nomatch state
    · nomatch state
  sent t event l roomId body r' es sessionId nonce sentAt domain e msg := by
    subst e
    obtain ⟨_, _, task, o, _⟩ := s.act_inv
    obtain ⟨_, ⟨session, set, t', now, challenge, expiresAt, commit, _, _, _, _, exp, encoded, clock,
      unexpired, rfl⟩, _⟩ := (r.inv.act task o).1 event sessionId nonce sentAt domain rfl msg
    exact ⟨session, now, _, challenge, .of_unexpired clock unexpired, encoded, set, t', commit, exp⟩
  approved row mem new state := by
    obtain ⟨t, input, l, a, rfl, ⟨old, set, w, rfl⟩ | ⟨request, rfl, c, rfl⟩⟩ := r.inv.row_written s mem new
    · cases w with
      | request c => nomatch state
      | refuse c _ => nomatch state
      | approve c =>
        have msg := c.message
        rw [c.isApproved] at msg
        obtain ⟨start, _, expiresAt, stored, sentAt, now⟩ := c.times (r.represented.filled _ c.mem)
        refine ⟨t, _, l, a, rfl, c.session, c.mem, rfl, rfl, ?_, ?_⟩
        · exact ⟨_, _, _, _, _, _, _, msg, start, c.now, c.clock, expiresAt, stored, sentAt, now⟩
        · exact ⟨c.assertion, _, rfl, c.assertionSealed, c.expiring (far.of_step r s rfl c.clock)⟩
      | revoke c => nomatch state
      | deliver c => nomatch state
    · nomatch state

/-- In every run with a clock far from the limits, challenges, consents and assertions expire with the QR,
and the comparisons are those of exact integers. -/
theorem everything_expires_with_qr (far : FarClock ls) (r : Run st ls S) (s : Step st S lb S') :
    ExpiringStep st S lb S' ∧
    (∀ iat exp : Int64, validateWindow iat exp = .ok () ↔
      iat.toInt < exp.toInt ∧ exp.toInt - iat.toInt ≤ 300000) ∧
    (∀ sentAt iat exp : Int64, sentAtInQrWindow sentAt iat exp = true ↔
      iat.toInt - 30000 ≤ sentAt.toInt ∧ sentAt.toInt ≤ exp.toInt) ∧
    ∀ sentAt exp : Int64, (challengeExpiresAt sentAt exp).toInt = min exp.toInt (sentAt.toInt + 300000) :=
  ⟨r.expiringStep far s, validateWindow_iff, sentAtInQrWindow_iff, toInt_challengeExpiresAt⟩

namespace Sample

/-- A step whose clock shows the time of a login. -/
def AtLoginTime (_ : Sys) (lb : Label) : Prop :=
  ∀ t input l (now : Int64) es, lb = .act t input l ⟨.now, now, es⟩ → now = loginTime

/-- A call is started. -/
lemma atLoginTime_spawn (S : Sys) (n : Nat) (input : Input) : AtLoginTime S (.spawn n input) := by
  intro t input' l now es h
  cases h

/-- A call is served in the environment of a login. -/
lemma atLoginTime_act {seed : UInt8} {site : SiteRequest → SiteResponse} {p : Prog Op Op.Resp Result}
    {db : Db} {seqs : Seqs} {l : Local} {m : Moment} (mem : m ∈ (env seed loginTime site).trace p db seqs l)
    (S : Sys) (n : Nat) (input : Input) : AtLoginTime S (m.label n input) := by
  intro t input' l' now es h
  obtain ⟨-, -, -, act⟩ := Label.act.inj h
  exact (Env.now_of_trace mem act).elim fun _ => id

end Sample

/-- The Consent of Alice, in a run with such a clock. -/
theorem everything_expires_with_qr_alice : ∃ ls S lb S', FarClock ls ∧ Run Sample.relay ls S ∧
    Step Sample.relay S lb S' ∧
    (∃ row ∈ S'.db.sessions, row ∉ S.db.sessions ∧ row.state = .consentReceived) ∧
    ExpiringStep Sample.relay S lb S' := by
  have registered : Reaches Sample.relay Sample.AtLoginTime Sys.init 1 _ Sample.registered.db
      Sample.registered.seqs :=
    Reaches.init.call (Sample.alice_valid.call_register _ _) trivial Sample.calls_closed.1
      (fun S => Sample.atLoginTime_spawn S 0 _) fun m hm _ _ _ _ => Sample.atLoginTime_act hm _ _ _
  have requested : Reaches Sample.relay Sample.AtLoginTime Sys.init 2 _ Sample.requested.db
      Sample.requested.seqs :=
    registered.call (Sample.alice_valid.call_request rfl) rfl Sample.calls_closed.2.1
      (fun S => Sample.atLoginTime_spawn S 1 _) fun m hm _ _ _ _ => Sample.atLoginTime_act hm _ _ _
  have before : ∀ row ∈ Sample.requested.db.sessions.rows, row.state ≠ .consentReceived := by decide +kernel
  have after : ¬ ∀ row ∈ Sample.consented.db.sessions.rows, row.state ≠ .consentReceived := by decide +kernel
  obtain ⟨ls, S, l, a, S', _, _, steps, none, _, s, some, _⟩ :=
    requested.turnWhen (P := fun db => ∀ row ∈ db.sessions.rows, row.state ≠ .consentReceived)
      (Sample.alice_valid.call_consent rfl) rfl Sample.calls_closed.2.2
      (fun S => Sample.atLoginTime_spawn S 2 _) (fun m hm _ _ _ _ => Sample.atLoginTime_act hm _ _ _) before after
  have run : RunWhen Sample.relay Sample.AtLoginTime ([] ++ ls) S := RunWhen.init.append steps
  have far : FarClock ([] ++ ls) := fun t input l now es mem => by
    obtain ⟨_, h⟩ := run.holds mem
    obtain rfl := h t input l now es rfl
    decide
  push Not at some
  obtain ⟨row, mem, state⟩ := some
  exact ⟨_, S, _, S', far, run.run, s, ⟨row, mem, fun old => none row old state, state⟩,
    (everything_expires_with_qr far run.run s).1⟩

end WebLoginRelay
