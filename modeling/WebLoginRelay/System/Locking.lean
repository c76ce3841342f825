import WebLoginRelay.System.Reached

/-!
# Updates under the row lock

A transaction updates a session by the id and the version of a row it has read under its lock, and it writes
no session before. `Relay.Locking` is the weakest precondition for this; it follows the journal of the
transaction only, so that every call is one pass over its operations.
-/

namespace WebLoginRelay
open Text Txn

/-- The transaction has read the row and written no session. -/
def Holding (row : SessionRow) (lg : List Entry) : Prop :=
  .sessionRead row ∈ lg ∧ ∀ e ∈ lg, e.WritesSession = false

/-- An update is of a row the transaction holds. -/
def UpdatesHeld (l : Local) (a : Act) : Prop :=
  ∀ id version set, a.op = .exec (.casUpdate id version set) →
    ∃ row, Holding row l.log ∧ row.id = id ∧ row.version = version

namespace Relay
variable {st : AppState} {input : Input} {α β : Type} {lg : List Entry}

/-- From a journal the computation updates what it holds; `P` holds of the result and of the journal. -/
def Locking (st : AppState) (input : Input) (x : Relay α) (P : α → List Entry → Prop) (lg : List Entry) : Prop :=
  ∀ l : Local, l.log = lg →
    Prog.wp (Local.PossIn st input) Local.after UpdatesHeld x.run (fun r l => ∀ a, r = .ok a → P a l.log) l

section Rules
variable {P : α → List Entry → Prop}

/-- A result keeps the journal. -/
lemma locking_pure {a : α} (h : P a lg) : Locking st input (pure a) P lg := by
  rintro l rfl b e
  cases e
  exact h

/-- A failure makes no statement. -/
lemma locking_throw {e : RelayError} : Locking st input (throw e : Relay α) P lg := by
  rintro l rfl b e
  nomatch e

/-- The journal of the first part is where the second one starts. -/
lemma locking_bind {x : Relay α} {f : α → Relay β} {P : β → List Entry → Prop}
    (h : Locking st input x (fun a lg => Locking st input (f a) P lg) lg) : Locking st input (x >>= f) P lg := by
  intro l hl
  have e : (x >>= f).run = x.run >>= ExceptT.bindCont f := rfl
  rw [e, Prog.wp_bind]
  refine Prog.wp_mono _ _ _ (fun r l' w => ?_) (h l hl)
  cases r with
  | ok a => exact w a rfl l' rfl
  | error e =>
    intro b eq
    nomatch eq

/-- A result without effects keeps the journal if it goes on. -/
lemma locking_liftResult {r : Except RelayError α} (h : ∀ a, r = .ok a → P a lg) :
    Locking st input (liftResult r) P lg := by
  rintro l rfl a e
  exact h a e

/-- Less may be said of the journal afterwards. -/
lemma locking_mono {x : Relay α} {P' : α → List Entry → Prop} (h : ∀ a lg, P a lg → P' a lg)
    (w : Locking st input x P lg) : Locking st input x P' lg :=
  fun l hl => Prog.wp_mono _ _ _ (fun _ _ q a e => h _ _ (q a e)) (w l hl)

/-- Every operation but an update is one for the answers it may get. -/
lemma locking_ask {o : Op} {P : o.Resp → List Entry → Prop}
    (other : ∀ id version set, o ≠ .exec (.casUpdate id version set))
    (h : ∀ (l : Local) r a, l.log = lg → l.PossIn st input o r a → P r (l.after a).log) :
    Locking st input (ask o) P lg := by
  intro l hl
  have e : (ask o).run = Prog.ask o >>= fun r => pure (.ok r) := rfl
  rw [e, Prog.wp_bind, Prog.wp_ask]
  intro r a poss
  obtain ⟨es, rfl, rest⟩ := poss
  refine ⟨fun id version set op => absurd op (other id version set), ?_⟩
  intro b eq
  cases eq
  exact h l r _ hl ⟨es, rfl, rest⟩

end Rules

/-! ## Operations -/

section Operations

/-- The clock is read outside the journal. -/
lemma locking_nowMs {P : Int64 → List Entry → Prop} (h : ∀ t, P t lg) : Locking st input nowMs P lg := by
  refine locking_ask (fun _ _ _ => nofun) fun l r a hl poss => ?_
  obtain ⟨es, rfl, db, seqs, seqs', reached, s⟩ := poss
  exact hl ▸ h r

/-- So are random bytes. -/
lemma locking_fillBytes {n} {P : { b : Bytes // b.length = n } → List Entry → Prop} (h : ∀ b, P b lg) :
    Locking st input (fillBytes n) P lg := by
  refine locking_ask (fun _ _ _ => nofun) fun l r a hl poss => ?_
  obtain ⟨es, rfl, db, seqs, seqs', reached, s⟩ := poss
  exact hl ▸ h r

/-- Encryption draws its nonce and records nothing. -/
lemma locking_encrypt {m : Bytes} {P : Bytes → List Entry → Prop} (h : ∀ c, P c lg) :
    Locking st input (st.encrypt m) P lg :=
  locking_bind (locking_fillBytes fun _ => locking_liftResult fun c _ => h c)

/-- A site is asked outside the journal. -/
lemma locking_request {r : SiteRequest} {P : SiteResponse → List Entry → Prop} (h : ∀ response, P response lg) :
    Locking st input (request r) P lg := by
  refine locking_bind (locking_ask (fun _ _ _ => nofun) fun l answer a hl poss => ?_)
  obtain ⟨es, rfl, db, seqs, seqs', reached, s⟩ := poss
  exact hl ▸ locking_liftResult fun response _ => h response

/-- A notice is sent outside the journal. -/
lemma locking_sendNotice {roomId body : String} {P : Unit → List Entry → Prop} (h : P () lg) :
    Locking st input (sendNotice roomId body) P lg := by
  refine locking_bind (locking_ask (fun _ _ _ => nofun) fun l answer a hl poss => ?_)
  obtain ⟨es, rfl, db, seqs, seqs', reached, s⟩ := poss
  exact hl ▸ locking_liftResult fun _ _ => h

/-- A statement on a pooled connection is not part of the transaction. -/
lemma locking_auto {a : Auto} {P : a.Resp → List Entry → Prop} (h : ∀ r, P r lg) :
    Locking st input (auto a) P lg := by
  refine locking_bind (locking_ask (fun _ _ _ => nofun) fun l answer a hl poss => ?_)
  obtain ⟨es, rfl, db, seqs, seqs', reached, s⟩ := poss
  exact hl ▸ locking_liftResult fun r _ => h r

/-- A commit empties the journal. -/
lemma locking_commit {P : Unit → List Entry → Prop} (h : P () []) : Locking st input commit P lg := by
  refine locking_bind (locking_ask (fun _ _ _ => nofun) fun l answer a hl poss => ?_)
  obtain ⟨es, rfl, db, seqs, seqs', reached, s⟩ := poss
  exact locking_liftResult fun _ _ => h

/-- So does a rollback. -/
lemma locking_rollback {P : Unit → List Entry → Prop} (h : P () []) : Locking st input rollback P lg := by
  refine locking_bind (locking_ask (fun _ _ _ => nofun) fun l answer a hl poss => ?_)
  obtain ⟨es, rfl, db, seqs, seqs', reached, s⟩ := poss
  exact locking_liftResult fun _ _ => h

/-- A transaction starts with an empty journal. -/
lemma locking_inTx {body : Relay α} {P : α → List Entry → Prop} (h : Locking st input body (fun a _ => P a []) []) :
    Locking st input (inTx body) P lg := by
  intro l hl
  refine (Prog.wp_bind _ _ _).mpr ((Prog.wp_ask _ _ _).mpr fun begun a poss => ?_)
  obtain ⟨es, rfl, db, seqs, seqs', reached, s⟩ := poss
  refine ⟨fun _ _ _ => nofun, ?_⟩
  cases begun with
  | error e =>
    intro b eq
    nomatch eq
  | ok τ =>
    refine (Prog.wp_bind _ _ _).mpr (Prog.wp_mono _ _ _ (fun x l' w => ?_) (h _ rfl))
    refine (Prog.wp_bind _ _ _).mpr ((Prog.wp_ask _ _ _).mpr fun _ a poss => ?_)
    obtain ⟨es, rfl, db, seqs, seqs', reached, s⟩ := poss
    exact ⟨fun _ _ _ => nofun, fun b eq => w b eq⟩

/-- A statement that is not an update appends its entries. -/
lemma locking_statement {q : Query} {P : α → List Entry → Prop} {read : Except DbError q.Resp → Except RelayError α}
    (other : ∀ id version set, q ≠ .casUpdate id version set) (failed : ∀ e a, read (.error e) ≠ .ok a)
    (h : ∀ db seqs now r a, (q.run db seqs now).resp = .ok r → read (.ok r) = .ok a →
      P a (lg ++ (q.run db seqs now).log)) :
    Locking st input (do liftResult (read (← ask (.exec q)))) P lg := by
  refine locking_bind (locking_ask (fun id version set e => other id version set (by injection e))
    fun l answer a hl poss => ?_)
  obtain ⟨es, rfl, db, seqs, seqs', reached, s⟩ := poss
  subst hl
  refine locking_liftResult fun a e => ?_
  obtain ⟨now, _, resp, rfl⟩ | ⟨rfl, _⟩ := s.exec_inv
  · cases answer with
    | ok r => exact h _ seqs now r a resp.symm e
    | error err => exact absurd e (failed err a)
  · exact absurd e (failed _ a)

/-- A statement other than an update appends its entries. -/
lemma locking_exec {q : Query} {P : q.Resp → List Entry → Prop}
    (other : ∀ id version set, q ≠ .casUpdate id version set)
    (h : ∀ db seqs now r, (q.run db seqs now).resp = .ok r → P r (lg ++ (q.run db seqs now).log)) :
    Locking st input (exec q) P lg :=
  locking_statement other (fun _ _ => nofun) fun db seqs now r a run e => by
    cases e
    exact h db seqs now r run

/-- The same, for a statement whose unique violations are a conflict. -/
lemma locking_execUnique {q : Query} {code : ProblemCode} {P : q.Resp → List Entry → Prop}
    (other : ∀ id version set, q ≠ .casUpdate id version set)
    (h : ∀ db seqs now r, (q.run db seqs now).resp = .ok r → P r (lg ++ (q.run db seqs now).log)) :
    Locking st input (execUnique code q) P lg :=
  locking_statement other (fun e _ => by cases e <;> exact nofun) fun db seqs now r a run e => by
    cases e
    exact h db seqs now r run

end Operations

/-! ## The functions of `src/db` -/

section Access
variable {row : SessionRow}

/-- What writes no session keeps a row held. -/
lemma holding_append {es : List Entry} (h : Holding row lg)
    (quiet : ∀ e ∈ es, e.WritesSession = false) : Holding row (lg ++ es) :=
  ⟨List.mem_append_left _ h.1, fun e he => (List.mem_append.mp he).elim (h.2 e) (quiet e)⟩

/-- A statement that writes no session keeps a row held. -/
lemma locking_held {q : Query} {P : q.Resp → List Entry → Prop} (insert : ∀ new, q ≠ .insertSession new)
    (update : ∀ id version set, q ≠ .casUpdate id version set) (hold : Holding row lg)
    (h : ∀ r lg', Holding row lg' → P r lg') : Locking st input (exec q) P lg :=
  locking_exec update fun _ _ _ r _ => h r _ (holding_append hold (Query.run_log insert update))

/-- A session stays held while a key is reserved. -/
lemma locking_reserve {code : ProblemCode} {key : ReplayKey} {t : DateTime} {P : Unit → List Entry → Prop}
    (hold : Holding row lg) (h : ∀ lg', Holding row lg' → P () lg') :
    Locking st input (reserve code key t) P lg :=
  locking_bind (locking_execUnique (fun _ _ _ => nofun) fun _ _ _ _ _ =>
    locking_pure (h _ (holding_append hold (Query.run_log (fun _ => nofun) fun _ _ _ => nofun))))

/-- A session stays held while a grant is looked up. -/
lemma locking_findActiveGrant {domain : String} {subjectHash : Bytes} {P : Option GrantRow → List Entry → Prop}
    (hold : Holding row lg) (h : ∀ g lg', Holding row lg' → P g lg') :
    Locking st input (findActiveGrant domain subjectHash) P lg :=
  locking_bind (locking_held (fun _ => nofun) (fun _ _ _ => nofun) hold fun _ _ hold' =>
    locking_liftResult fun g _ => h g _ hold')

/-- A session stays held while a grant is revoked. -/
lemma locking_markRevoked {id : Nat} {P : Unit → List Entry → Prop} (hold : Holding row lg)
    (h : ∀ lg', Holding row lg' → P () lg') : Locking st input (markRevoked id) P lg :=
  locking_bind (locking_held (fun _ => nofun) (fun _ _ _ => nofun) hold fun _ _ hold' =>
    locking_pure (h _ hold'))

/-- After the update nothing is left to ask for. -/
lemma locking_enqueue {new : NewJob} {P : Unit → List Entry → Prop} (h : ∀ lg', P () lg') :
    Locking st input (enqueue new) P lg :=
  locking_bind (locking_exec (fun _ _ _ => nofun) fun _ _ _ _ _ => locking_pure (h _))

/-- A session stays held while a job is queued. -/
lemma locking_enqueue_held {new : NewJob} {P : Unit → List Entry → Prop} (hold : Holding row lg)
    (h : ∀ lg', Holding row lg' → P () lg') : Locking st input (enqueue new) P lg :=
  locking_bind (locking_held (fun _ => nofun) (fun _ _ _ => nofun) hold fun _ _ hold' =>
    locking_pure (h _ hold'))

/-- A lookup that yields a row holds it. -/
lemma locking_lookup {filter : SessionFilter} {P : Option SessionRow → List Entry → Prop}
    (none : ∀ lg', P .none lg') (some : ∀ row lg', Holding row lg' → P (.some row) lg') :
    Locking st input (do liftResult (queryOpt (← exec (.selectSessions filter)))) P [] := by
  refine locking_bind (locking_exec (fun _ _ _ => nofun) fun db seqs now rows run =>
    locking_liftResult fun o e => ?_)
  cases run
  rw [List.nil_append]
  cases o with
  | none => exact none _
  | some row =>
    have quiet := @Query.run_log db seqs now (.selectSessions filter) (fun _ => nofun) fun _ _ _ => nofun
    refine some row _ ⟨?_, quiet⟩
    have entries : (Query.run db seqs now (.selectSessions filter)).log =
        (db.sessions.rows.filter filter.accepts).map .sessionRead := rfl
    rw [entries]
    generalize db.sessions.rows.filter filter.accepts = rows at e
    cases rows with
    | nil => nomatch e
    | cons first rest =>
      cases rest with
      | nil =>
        cases e
        exact List.mem_singleton_self _
      | cons _ _ => nomatch e

/-- A row that is held is updated. -/
lemma locking_casUpdate {set : SessionSet} {P : Bool → List Entry → Prop} (hold : Holding row lg)
    (h : ∀ b lg', P b lg') : Locking st input (casUpdate row.id row.version set) P lg := by
  have updates : Locking st input (ask (.exec (.casUpdate row.id row.version set))) (fun _ _ => True) lg := by
    rintro l rfl
    refine (Prog.wp_bind _ _ _).mpr ((Prog.wp_ask _ _ _).mpr fun r a poss => ?_)
    obtain ⟨es, rfl, rest⟩ := poss
    refine ⟨fun id version set op => ?_, fun _ _ => trivial⟩
    cases op
    exact ⟨row, hold, rfl, rfl⟩
  refine locking_bind (locking_bind (locking_mono (fun answer lg' _ => ?_) updates))
  exact locking_liftResult fun n _ => locking_pure (h _ _)

end Access

/-! ## Calls -/

section Calls
variable {event : InboundEvent} {session : SessionRow}

/-- Nothing is asked of the end of a call. -/
abbrev Locks (st : AppState) (input : Input) (x : Relay α) (lg : List Entry) : Prop :=
  Locking st input x (fun _ _ => True) lg

/-- A result without effects before a computation. -/
lemma locks_lift {r : Except RelayError α} {f : α → Relay β} (h : ∀ a, Locks st input (f a) lg) :
    Locks st input (liftM r >>= f) lg :=
  locking_bind (locking_liftResult fun a _ => h a)

/-- A failure notice makes no statement. -/
lemma locks_sendFailure {roomId sessionId nonce reason : String} :
    Locks st input (sendFailure st roomId sessionId nonce reason) lg :=
  locking_bind (locking_nowMs fun _ => locks_lift fun _ =>
    locking_bind (locking_sendNotice (locking_pure trivial)))

/-- A challenge is bound to the session that is held. -/
lemma locking_bindChallenge {now : Int64} {P : String × Int64 → List Entry → Prop} (hold : Holding session lg)
    (h : ∀ a lg', P a lg') : Locking st input (bindChallenge st event now session) P lg := by
  refine locking_bind (locking_liftResult fun _ _ => locking_bind (locking_reserve hold fun lg hold => ?_))
  refine locking_bind (locking_fillBytes fun bytes => ?_)
  refine locking_bind (locking_liftResult fun _ _ => locking_bind (locking_reserve hold fun lg hold => ?_))
  refine locking_bind (locking_encrypt fun roomCt => locking_bind (locking_encrypt fun senderCt => ?_))
  refine locking_bind (locking_casUpdate hold fun updated lg => ?_)
  split
  · exact locking_pure (h _ _)
  · exact locking_throw

/-- `process_request` updates the session it has found. -/
lemma locks_processRequest {sessionId nonce : String} {sentAt : Int64} {domain : String} :
    Locks st input (processRequest st event sessionId nonce sentAt domain) lg := by
  refine locking_bind (locking_nowMs fun now => locking_inTx ?_)
  refine locking_bind (locking_lookup (fun lg => locking_pure trivial) fun session lg hold => ?_)
  dsimp only
  split
  · exact locking_pure trivial
  · split
    · exact locking_bind (locking_commit (locking_pure trivial))
    · refine locking_bind (locking_bindChallenge hold fun a lg => ?_)
      refine locking_bind (locking_commit (locks_lift fun _ => ?_))
      exact locking_bind (locking_sendNotice (locking_pure trivial))

/-- An approval updates the session it has found. -/
lemma locks_mintAssertion {sessionId nonce : String} {now : Int64} {displayName : Option String}
    (hold : Holding session lg) :
    Locks st input (mintAssertion st event sessionId nonce now displayName session) lg := by
  cases displayName with
  | none => exact locking_throw
  | some display =>
    refine locks_lift fun sub => locking_bind (locking_encrypt fun subjectCt => ?_)
    refine locking_bind (locking_encrypt fun userCt => ?_)
    refine locking_bind (locking_held (fun _ => nofun) (fun _ _ _ => nofun) hold fun grant lg hold => ?_)
    refine locking_bind (locking_fillBytes fun bytes => locks_lift fun assertion => locks_lift fun expiresAt => ?_)
    refine locking_bind (locking_reserve hold fun lg hold => ?_)
    refine locking_bind (locking_encrypt fun assertionCt => locking_bind (locking_encrypt fun displayCt => ?_))
    refine locking_bind (locking_casUpdate hold fun updated lg => locking_bind (locking_enqueue fun lg => ?_))
    exact locking_bind (locking_commit (locking_pure trivial))

/-- So does either answer to a challenge. -/
lemma locks_consentOn {sessionId nonce : String} {sentAt : Int64} {approved : Bool} {displayName : Option String}
    {challenge : String} {now : Int64} (hold : Holding session lg) :
    Locks st input (consentOn st event sessionId nonce sentAt approved displayName challenge now session) lg := by
  unfold consentOn
  split
  · exact locking_bind (locking_rollback locks_sendFailure)
  · split
    · exact locking_pure trivial
    · split
      · exact locking_pure trivial
      · refine locks_lift fun expiresAt => locking_bind (locking_reserve hold fun lg hold => ?_)
        split
        · exact locks_mintAssertion hold
        · refine locking_bind (locking_casUpdate hold fun updated lg => ?_)
          exact locking_bind (locking_commit locks_sendFailure)

/-- `process_consent` updates the session it has found. -/
lemma locks_processConsent {sessionId nonce : String} {sentAt : Int64} {approved : Bool}
    {displayName : Option String} {challenge keyId signature : String} :
    Locks st input
      (processConsent st event sessionId nonce sentAt approved displayName challenge keyId signature) lg := by
  refine locking_bind (locking_nowMs fun now => locks_lift fun signed => locks_lift fun _ => locking_inTx ?_)
  exact locking_bind (locking_lookup (fun lg => locking_throw) fun session lg hold => locks_consentOn hold)

/-- A Revocation updates the session it has found. -/
lemma locks_revocationOn {sessionId nonce siteAccountId : String} {reason : Option String}
    (hold : Holding session lg) :
    Locks st input (revocationOn st event sessionId nonce siteAccountId reason session) lg := by
  refine locking_bind (locking_findActiveGrant hold fun grant lg hold => ?_)
  cases grant with
  | none => exact locking_pure trivial
  | some grant =>
    refine locks_lift fun storedUser => ?_
    split
    · exact locking_pure trivial
    · split
      · exact locking_bind (locking_commit (locking_pure trivial))
      · refine locking_bind (locking_markRevoked hold fun lg hold => locking_bind (locking_fillBytes fun bytes => ?_))
        refine locking_bind (locking_nowMs fun reservedAt => locks_lift fun expiresAt => ?_)
        refine locking_bind (locking_reserve hold fun lg hold => locking_bind (locking_nowMs fun iat => ?_))
        refine locks_lift fun revocation => locking_bind (locking_encrypt fun payloadCt => ?_)
        refine locking_bind (locking_enqueue_held hold fun lg hold => ?_)
        refine locking_bind (locking_casUpdate hold fun updated lg => ?_)
        exact locking_bind (locking_commit (locking_pure trivial))

/-- `process_revocation` updates the session it has found. -/
lemma locks_processRevocation {sessionId nonce siteAccountId : String} {reason : Option String} :
    Locks st input (processRevocation st event sessionId nonce siteAccountId reason) lg :=
  locking_inTx (locking_bind (locking_lookup (fun _ => locking_pure trivial) fun _ _ hold => locks_revocationOn hold))

/-- Every event is handled so. -/
lemma locks_handleInbound : Locks st input (handleInbound st event) lg := by
  unfold handleInbound
  split
  · exact locks_processRequest
  · exact locks_processConsent
  · exact locks_processRevocation
  · exact locking_pure trivial

/-- A computation whose failures are handled. -/
lemma locks_handled {x : Relay α} {f : Except RelayError α → Prog Op Op.Resp (Except RelayError β)}
    (w : Locks st input x lg) (h : ∀ r lg, Locks st input (ExceptT.mk (f r)) lg) :
    Locks st input (ExceptT.mk (x.run >>= f)) lg := by
  intro l hl
  refine (Prog.wp_bind _ _ _).mpr (Prog.wp_mono _ _ _ (fun r l' _ => ?_) (w l hl))
  exact h r l'.log l' rfl

/-- One computation after the other. -/
lemma locks_then {x : Relay α} {f : α → Relay β} (w : Locks st input x lg) (h : ∀ a lg, Locks st input (f a) lg) :
    Locks st input (x >>= f) lg :=
  locking_bind (locking_mono (fun a lg _ => h a lg) w)

/-- `register_session` updates no session. -/
lemma locks_registerSession {request : RegistrationRequest} : Locks st input (registerSession st request) lg := by
  have metadata (lg) : Locks st input (fetchVerifiedMetadata st request.domain) lg := by
    refine locks_handled (locking_bind (locking_request fun response => ?_)) fun r lg => ?_
    · split
      · exact locking_throw
      · exact locks_lift fun metadata => locks_lift fun _ => locking_pure trivial
    · exact locking_liftResult fun _ _ => trivial
  have insert (new) (lg) : Locks st input (insertRegistered st new) lg := by
    refine locks_lift fun expiresAt => locking_bind (locking_execUnique (fun _ _ _ => nofun) fun _ _ _ n _ => ?_)
    split
    · exact locking_pure trivial
    · refine locking_bind (locking_bind (locking_exec (fun _ _ _ => nofun) fun _ _ _ rows _ => ?_))
      refine locking_liftResult fun existing _ => ?_
      cases existing with
      | none => exact locking_throw
      | some existing =>
        dsimp only
        split
        · exact locking_pure trivial
        · exact locking_throw
  refine locks_lift fun _ => locking_bind (locking_nowMs fun now => ?_)
  split
  · exact locking_throw
  · refine locks_then (metadata _) fun metadata lg => locks_lift fun qr => locks_lift fun _ => ?_
    refine locks_lift fun registration => locks_lift fun _ => locking_bind (locking_encrypt fun nonceCt => ?_)
    refine locking_inTx (locks_then (insert _ _) fun outcome lg => ?_)
    exact locking_bind (locking_commit (locking_pure trivial))

/-- `after_assertion_accepted` updates the session it has found. -/
lemma locks_afterAssertionAccepted {job : DeliveryJob} {payload : Bytes} :
    Locks st input (afterAssertionAccepted st job payload) lg := by
  refine locks_lift fun assertion => locking_inTx ?_
  refine locking_bind (locking_lookup (fun lg => locking_pure trivial) fun session lg hold => ?_)
  dsimp only
  split
  · exact locking_throw
  · refine locks_lift fun roomId => locks_lift fun nonce => ?_
    refine locking_bind (locking_casUpdate hold fun updated lg => locking_bind (locking_commit ?_))
    refine locking_bind (locking_nowMs fun sentAt => locks_lift fun body => ?_)
    exact locking_sendNotice trivial

/-- `deliver` updates a session only after its assertion was accepted. -/
lemma locks_deliver {job : DeliveryJob} : Locks st input (deliver st job) lg := by
  refine locks_lift fun payload => locking_bind (locking_request fun response => ?_)
  split
  · exact locking_throw
  · split
    · exact locks_afterAssertionAccepted
    · exact locking_pure trivial

/-- So does a whole batch. -/
lemma locks_deliverAll {jobs : List DeliveryJob} : Locks st input (deliverAll st jobs) lg := by
  induction jobs generalizing lg with
  | nil => exact locking_pure trivial
  | cons job jobs ih =>
    refine locks_then (locks_handled locks_deliver fun r lg => ?_) fun _ lg => ih
    cases r with
    | ok _ => exact locking_bind (locking_auto fun _ => locking_pure trivial)
    | error _ =>
      dsimp only
      split
      · exact locking_bind (locking_auto fun _ => locking_pure trivial)
      · exact locking_pure trivial

/-- So does `tick`. -/
lemma locks_tick : Locks st input (tick st) lg :=
  locking_bind (locking_auto fun _ => locks_deliverAll)

end Calls

end Relay

/-- Every call updates the rows it holds only. -/
theorem wp_updatesHeld (st : AppState) (input : Input) :
    Prog.wp (Local.PossIn st input) Local.after UpdatesHeld (input.prog st) (fun _ _ => True) {} := by
  have lift {α} {x : Relay α} {f : Except RelayError α → Result} (w : Relay.Locks st input x []) :
      Prog.wp (Local.PossIn st input) Local.after UpdatesHeld (f <$> x.run) (fun _ _ => True) {} := by
    rw [map_eq_pure_bind, Prog.wp_bind]
    exact Prog.wp_mono _ _ _ (fun _ _ _ => trivial) (w {} rfl)
  cases input with
  | register request => exact lift Relay.locks_registerSession
  | inbound event => exact lift Relay.locks_handleInbound
  | tick => exact lift Relay.locks_tick

/-- In every run an update is of a row the transaction holds. -/
lemma Step.updatesHeld {st : AppState} {ls S S' t input l a} (r : Run st ls S)
    (s : Step st S (.act t input l a) S') : UpdatesHeld l a := by
  obtain ⟨k, seqs, task, o, _, _⟩ := s.act_inv
  have w := r.within (wp_updatesHeld st input) task
  exact (w a.resp a ⟨a.log, rfl, S.db, S.seqs, seqs, ⟨ls, S, t, _, r, task, rfl⟩, o⟩).1

end WebLoginRelay
