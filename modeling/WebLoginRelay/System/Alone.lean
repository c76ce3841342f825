import WebLoginRelay.System.Reached
import WebLoginRelay.System.Sequential

/-!
# What a call that is alone has done

Rules for partial correctness of a single call under a fixed environment: `Yields env x Q db l` says that
`x`, started on `db`, either fails or ends in `Q`. No other call moves in between, so a statement runs on
the database the call has started on, with its own journal replayed.
-/

namespace WebLoginRelay
open Text Txn

variable {st : AppState} {db : Db}

namespace Relay
variable {env : Env} {α β : Type}

/-- If the computation succeeds, then with `Q`. -/
def Yields (env : Env) (x : Relay α) (Q : α → Db → Local → Prop) (db : Db) (l : Local) : Prop :=
  ∀ seqs a, (env.run x.run db seqs l).result = .ok a →
    Q a (env.run x.run db seqs l).db (env.run x.run db seqs l).loc

section Rules
variable {Q : α → Db → Local → Prop} {l : Local}

/-- A result has to satisfy the postcondition. -/
lemma yields_pure {a : α} (h : Q a db l) : Yields env (pure a) Q db l := by
  intro seqs b e
  cases e
  exact h

/-- The rule of composition. -/
lemma yields_bind {x : Relay α} {f : α → Relay β} {Q : β → Db → Local → Prop}
    (h : Yields env x (fun a => Yields env (f a) Q) db l) : Yields env (x >>= f) Q db l := by
  intro seqs b
  have first := h seqs
  rw [ExceptT.run_bind, Env.run_bind]
  generalize env.run x.run db seqs l = F at first
  obtain ⟨result, db', seqs', l'⟩ := F
  cases result with
  | ok a => exact first a rfl seqs' b
  | error err =>
    intro e
    cases e

/-- A result without effects goes on if there is one. -/
lemma yields_liftResult {r : Except RelayError α} (h : ∀ a, r = .ok a → Q a db l) :
    Yields env (liftResult r) Q db l := by
  intro seqs a e
  exact h a e

/-- Operations that only answer. -/
lemma yields_ask {o : Op} {Q : o.Resp → Db → Local → Prop}
    (h : ∀ seqs, Q (env.answer db seqs l o).resp (journal.replay db (env.answer db seqs l o).act.writes)
      (l.after (env.answer db seqs l o).act)) : Yields env (ask o) Q db l := by
  intro seqs a e
  cases e
  exact h seqs

end Rules

section Operations
variable {p : List Act} {tx : Option DateTime} {τ : DateTime} {lg : List Entry}

/-- The clock is read. -/
lemma yields_nowMs {Q : Int64 → Db → Local → Prop} (h : ∀ t p', Q t db ⟨p', tx, lg⟩) :
    Yields env nowMs Q db ⟨p, tx, lg⟩ :=
  yields_ask fun _ => h _ _

/-- Random bytes are drawn. -/
lemma yields_fillBytes {n : Nat} {Q : { b : Bytes // b.length = n } → Db → Local → Prop}
    (h : ∀ b p', Q b db ⟨p', tx, lg⟩) : Yields env (fillBytes n) Q db ⟨p, tx, lg⟩ :=
  yields_ask fun _ => h _ _

/-- Encryption may fail, and else goes on. -/
lemma yields_encrypt {m : Bytes} {Q : Bytes → Db → Local → Prop} (h : ∀ c p', Q c db ⟨p', tx, lg⟩) :
    Yields env (st.encrypt m) Q db ⟨p, tx, lg⟩ :=
  yields_bind (yields_fillBytes fun _ p' => yields_liftResult fun c _ => h c p')

/-- A statement that succeeds has run on the database with the journal replayed. -/
lemma yields_statement {q : Query} {read : Except DbError q.Resp → Except RelayError α}
    {Q : α → Db → Local → Prop} (failed : ∀ e a, read (.error e) ≠ .ok a)
    (h : ∀ seqs r a p', (q.run (journal.replay db lg) seqs τ).resp = .ok r → read (.ok r) = .ok a →
      Q a db ⟨p', some τ, lg ++ (q.run (journal.replay db lg) seqs τ).log⟩) :
    Yields env (do liftResult (read (← ask (.exec q)))) Q db ⟨p, some τ, lg⟩ := by
  refine yields_bind (yields_ask fun seqs => yields_liftResult fun a => ?_)
  simp only [Env.answer]
  cases env.fault p.length with
  | true => exact fun e => absurd e (failed _ a)
  | false =>
    have run := h seqs
    simp only [Answer.act]
    generalize q.run (journal.replay db lg) seqs τ = out at run ⊢
    obtain ⟨resp, log, seqs'⟩ := out
    cases resp with
    | error err => exact fun e => absurd e (failed err a)
    | ok r => exact run r a _ rfl

/-- A statement whose errors are all internal. -/
lemma yields_exec {q : Query} {Q : q.Resp → Db → Local → Prop}
    (h : ∀ seqs r p', (q.run (journal.replay db lg) seqs τ).resp = .ok r →
      Q r db ⟨p', some τ, lg ++ (q.run (journal.replay db lg) seqs τ).log⟩) :
    Yields env (exec q) Q db ⟨p, some τ, lg⟩ := by
  refine yields_statement (fun _ _ e => by cases e) fun seqs r a p' run e => ?_
  cases e
  exact h seqs r p' run

/-- A statement whose unique violations are a conflict. -/
lemma yields_execUnique {q : Query} {code : ProblemCode} {Q : q.Resp → Db → Local → Prop}
    (h : ∀ seqs r p', (q.run (journal.replay db lg) seqs τ).resp = .ok r →
      Q r db ⟨p', some τ, lg ++ (q.run (journal.replay db lg) seqs τ).log⟩) :
    Yields env (execUnique code q) Q db ⟨p, some τ, lg⟩ := by
  refine yields_statement (fun err a e => ?_) fun seqs r a p' run e => ?_
  · cases err <;> cases e
  · cases e
    exact h seqs r p' run

/-- A lookup yields nothing if there is nothing, and the row if there is one. -/
lemma yields_queryOpt {rows : List α} {Q : Option α → Db → Local → Prop} {l : Local}
    (hn : rows = [] → Q none db l) (hs : ∀ row, rows = [row] → Q (some row) db l) :
    Yields env (liftResult (queryOpt rows)) Q db l := by
  refine yields_liftResult fun o e => ?_
  cases rows with
  | nil =>
    cases e
    exact hn rfl
  | cons row rows =>
    cases rows with
    | nil =>
      cases e
      exact hs row rfl
    | cons _ _ => cases e

/-- The session with this id and nonce, if there is only one. -/
lemma yields_getBySessionAndNonce {sessionId : String} {nonceHash : Bytes}
    {Q : Option SessionRow → Db → Local → Prop}
    (hn : ∀ p', (journal.replay db lg).sessions.rows.filter
      (SessionFilter.sessionAndNonce sessionId nonceHash).accepts = [] → Q none db ⟨p', some τ, lg⟩)
    (hs : ∀ row p', (journal.replay db lg).sessions.rows.filter
      (SessionFilter.sessionAndNonce sessionId nonceHash).accepts = [row] →
      Q (some row) db ⟨p', some τ, lg ++ [.sessionRead row]⟩) :
    Yields env (getBySessionAndNonce sessionId nonceHash) Q db ⟨p, some τ, lg⟩ := by
  refine yields_bind (yields_exec fun seqs rows p' run => ?_)
  cases run
  refine yields_queryOpt (fun e => ?_) fun row e => ?_
  · simp only [Query.run, e, List.map_nil, List.append_nil]
    exact hn p' e
  · simp only [Query.run, e, List.map_cons, List.map_nil]
    exact hs row p' e

/-- The grant of this subject, if there is one. -/
lemma yields_findActiveGrant {domain : String} {subjectHash : Bytes} {Q : Option GrantRow → Db → Local → Prop}
    (hn : ∀ p', (journal.replay db lg).grants.rows.filter
      (fun g => g.domain == domain && g.subjectHash == subjectHash) = [] → Q none db ⟨p', some τ, lg⟩)
    (hs : ∀ g p', (journal.replay db lg).grants.rows.filter
      (fun g => g.domain == domain && g.subjectHash == subjectHash) = [g] →
      Q (some g) db ⟨p', some τ, lg ++ [.grantRead g]⟩) :
    Yields env (findActiveGrant domain subjectHash) Q db ⟨p, some τ, lg⟩ := by
  refine yields_bind (yields_exec fun seqs rows p' run => ?_)
  cases run
  refine yields_queryOpt (fun e => ?_) fun g e => ?_
  · simp only [Query.run, e, List.map_nil, List.append_nil]
    exact hn p' e
  · simp only [Query.run, e, List.map_cons, List.map_nil]
    exact hs g p' e

/-- The entries of a statement that does not write sessions. -/
lemma yields_plain {q : Query} {Q : q.Resp → Db → Local → Prop}
    (insert : ∀ new, q ≠ .insertSession new) (update : ∀ id version set, q ≠ .casUpdate id version set)
    (h : ∀ r p' es, (∀ e ∈ es, e.WritesSession = false) → Q r db ⟨p', some τ, lg ++ es⟩) :
    Yields env (exec q) Q db ⟨p, some τ, lg⟩ :=
  yields_exec fun _ r p' _ => h r p' _ (q.run_log insert update)

/-- A key is reserved by an entry that writes no session. -/
lemma yields_reserve {code : ProblemCode} {key : ReplayKey} {t : DateTime} {Q : Unit → Db → Local → Prop}
    (h : ∀ p' es, (∀ e ∈ es, e.WritesSession = false) → Q () db ⟨p', some τ, lg ++ es⟩) :
    Yields env (reserve code key t) Q db ⟨p, some τ, lg⟩ :=
  yields_bind (yields_execUnique fun _ _ p' _ =>
    yields_pure (h p' _ (Query.run_log (fun _ => nofun) fun _ _ _ => nofun)))

/-- An update of a row the transaction sees. -/
lemma yields_casUpdate {row : SessionRow} {set : SessionSet} {Q : Bool → Db → Local → Prop}
    (mem : row ∈ (journal.replay db lg).sessions)
    (h : ∀ p', Q true db ⟨p', some τ, lg ++ [.sessionUpdate row set]⟩) :
    Yields env (casUpdate row.id row.version set) Q db ⟨p, some τ, lg⟩ := by
  refine yields_bind (yields_execUnique fun seqs n p' run => yields_pure ?_)
  simp only [Query.run, find_session mem] at run ⊢
  split at run
  · rename_i le
    cases run
    rw [if_pos le]
    exact h p'
  · cases run

/-- A commit replays the journal. -/
lemma yields_commit {Q : Unit → Db → Local → Prop} (h : ∀ p', Q () (journal.replay db lg) ⟨p', none, []⟩) :
    Yields env commit Q db ⟨p, some τ, lg⟩ := by
  refine yields_bind (yields_ask fun seqs => yields_liftResult fun _ => ?_)
  simp only [Env.answer]
  cases env.fault p.length with
  | true =>
    intro e
    cases e
  | false => exact fun _ => h _

/-- What a transaction leaves does not depend on how it is closed. -/
lemma yields_inTx {body : Relay α} {Q : α → Db → Prop} {l : Local}
    (h : ∀ τ p', Yields env body (fun a db _ => Q a db) db ⟨p', some τ, []⟩) :
    Yields env (inTx body) (fun a db _ => Q a db) db l := by
  intro seqs a
  have e : (inTx body).run = Prog.req Op.begin fun begun => match begun with
    | .error _ => pure (fail .internalError)
    | .ok _ => body.run >>= fun r => Prog.ask Op.drop >>= fun _ => pure r := rfl
  rw [e]
  simp only [Env.run, Env.answer]
  cases env.begun l.past.length with
  | error err =>
    intro e
    cases e
  | ok τ =>
    have inner := h τ (l.past ++ [⟨.begin, (Except.ok τ : Except DbError DateTime), []⟩]) seqs a
    simp only [Env.run_bind]
    exact inner

end Operations

end Relay

/-- A call continues every run in which nothing else is under way. -/
lemma Env.call_steps (env : Env) {S : Sys} {n : Nat} (q : S.Quiet n) {input : Input} (wf : input.WellFormed) :
    ∃ S', Steps st S (env.labels st n input S.db S.seqs) S' ∧ S'.db = (env.call st input S.db S.seqs).db := by
  obtain ⟨S₁, spawned, hd, hs, task, others⟩ := Sys.start st input (q.free n (Nat.le_refl n)) wf
  have alone (u : Nat) (hu : u ≠ n) : S₁.journalOf u = [] :=
    (Sys.journalOf_congr (others u hu)).trans (q.idle u)
  obtain ⟨S', steps, hd', _⟩ := env.run_steps (C := fun _ _ => True) task alone fun _ _ _ _ => trivial
  rw [hd, hs] at steps hd'
  exact ⟨S', .cons spawned steps.steps, hd'⟩

/-- What every action of a call keeps holds after a call that is alone. -/
lemma Env.call_keep (env : Env) {S : Sys} {n : Nat} (q : S.Quiet n) {input : Input} (wf : input.WellFormed)
    {P : Db → Prop} (start : P S.db) (step : ∀ {ls S₁ l a S₂}, Steps st S ls S₁ → P S₁.db →
      Step st S₁ (.act n input l a) S₂ → P S₂.db) : P (env.call st input S.db S.seqs).db := by
  have keep {ls post : List Label} {S₁ S₂ : Sys} (s₁ : Steps st S ls S₁) (h : P S₁.db)
      (s : Steps st S₁ post S₂)
      (own : ∀ lb ∈ post, lb = .spawn n input ∨ ∃ l a, lb = .act n input l a) : P S₂.db := by
    induction s generalizing ls with
    | nil => exact h
    | @cons S₁ lb S₂ post S₃ s _ ih =>
      have next : P S₂.db := by
        obtain rfl | ⟨l, a, rfl⟩ := own lb List.mem_cons_self
        · cases s with
          | spawn _ _ => exact h
        · exact step s₁ h s
      exact ih (s₁.snoc s) next fun lb h => own lb (List.mem_cons_of_mem _ h)
  obtain ⟨S', s, hd⟩ : ∃ S', Steps st S (env.labels st n input S.db S.seqs) S' ∧ S'.db = _ := env.call_steps q wf
  rw [← hd]
  refine keep .nil start s fun lb h => ?_
  obtain rfl | ⟨m, _, rfl⟩ := Env.mem_labels h
  · exact .inl rfl
  · exact .inr ⟨_, _, rfl⟩

end WebLoginRelay
