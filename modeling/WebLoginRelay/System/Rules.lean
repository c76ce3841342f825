import WebLoginRelay.System.Permits

/-!
# Rules for the relay's operations

One rule for each operation and each function of `src/db`: what has to hold of its result and of the
local state after it. The rules for statements use that the journal of the transaction is valid for
the database the statement runs on, so that a row that was read before, and that the transaction has
not changed since, is found again.
-/

namespace WebLoginRelay
open Text Txn

/-- A session found by its id and version is the one that was read. -/
lemma find_session {db : Db} {s : SessionRow} (h : s ∈ db.sessions) :
    db.sessions.rows.find? (fun r => r.id == s.id && r.version == s.version) = some s := by
  cases e : db.sessions.rows.find? fun r => r.id == s.id && r.version == s.version with
  | none =>
    have n := List.find?_eq_none.mp e s h
    simp at n
  | some r =>
    have hr : r.id = s.id := by
      have := List.find?_some e
      simp at this
      exact this.1
    have mem : r ∈ db.sessions := List.mem_of_find?_eq_some e
    rw [Table.eq_of_clash (fun _ _ => SessionRow.Clash.symm) mem h (.inl hr)]

/-- An active grant found by its id is the one that was read. -/
lemma find_grant {db : Db} {g : GrantRow} (h : g ∈ db.grants) (active : g.revokedAt = none) :
    db.grants.rows.find? (fun f => f.id == g.id && f.revokedAt.isNone) = some g := by
  cases e : db.grants.rows.find? fun f => f.id == g.id && f.revokedAt.isNone with
  | none =>
    have n := List.find?_eq_none.mp e g h
    simp [active] at n
  | some f =>
    have hf : f.id = g.id := by
      have := List.find?_some e
      simp at this
      exact this.1
    have mem : f ∈ db.grants := List.mem_of_find?_eq_some e
    rw [Table.eq_of_clash (fun _ _ => GrantRow.Clash.symm) mem h (.inl hf)]

namespace Relay
variable {st : AppState} {input : Input} {α : Type} {p : List Act} {tx : Option DateTime}
  {τ : DateTime} {lg : List Entry}

/-- The clock is read, and noted. -/
lemma safe_nowMs {P : Int64 → Local → Prop} (h : ∀ t, P t ⟨p ++ [⟨.now, t, []⟩], tx, lg⟩) :
    Safe st input nowMs P ⟨p, tx, lg⟩ := by
  refine safe_ask.mpr fun r a hp => ?_
  obtain ⟨es, rfl, db, seqs, seqs', vl, s⟩ := hp
  cases s
  exact ⟨trivial, h _⟩

/-- Random bytes are drawn, and noted. -/
lemma safe_fillBytes {n} {P : { b : Bytes // b.length = n } → Local → Prop}
    (h : ∀ b, P b ⟨p ++ [⟨.fillBytes n, b, []⟩], tx, lg⟩) :
    Safe st input (fillBytes n) P ⟨p, tx, lg⟩ := by
  refine safe_ask.mpr fun r a hp => ?_
  obtain ⟨es, rfl, db, seqs, seqs', vl, s⟩ := hp
  cases s
  exact ⟨trivial, h _⟩

/-- A site is asked if that is permitted. -/
lemma safe_request {r : SiteRequest} {P : SiteResponse → Local → Prop}
    (ok : ∀ answer, Permits st input ⟨p, tx, lg⟩ ⟨.request r, answer, []⟩)
    (h : ∀ response, P response ⟨p ++ [⟨.request r, Except.ok response, []⟩], tx, lg⟩) :
    Safe st input (request r) P ⟨p, tx, lg⟩ := by
  refine safe_bind.mpr (safe_ask.mpr fun answer a hp => ?_)
  obtain ⟨es, rfl, db, seqs, seqs', vl, s⟩ := hp
  cases s
  refine ⟨ok _, safe_liftResult.mpr fun response e => ?_⟩
  subst e
  exact h response

/-- A notice is sent if that is permitted. -/
lemma safe_sendNotice {roomId body : String} {P : Unit → Local → Prop}
    (ok : ∀ answer, Permits st input ⟨p, tx, lg⟩ ⟨.sendNotice roomId body, answer, []⟩)
    (h : P () ⟨p ++ [⟨.sendNotice roomId body, Except.ok (), []⟩], tx, lg⟩) :
    Safe st input (sendNotice roomId body) P ⟨p, tx, lg⟩ := by
  refine safe_bind.mpr (safe_ask.mpr fun answer a hp => ?_)
  obtain ⟨es, rfl, db, seqs, seqs', vl, s⟩ := hp
  cases s
  refine ⟨ok _, safe_liftResult.mpr fun response e => ?_⟩
  subst e
  exact h

/-- A ciphertext was sealed with the drawn nonce. -/
lemma safe_encrypt {m : Bytes} {P : Bytes → Local → Prop}
    (h : ∀ nonce c, Sealed st m c → P c ⟨p ++ [⟨.fillBytes nonceLen, nonce, []⟩], tx, lg⟩) :
    Safe st input (st.encrypt m) P ⟨p, tx, lg⟩ := by
  refine safe_bind.mpr (safe_fillBytes fun nonce => safe_liftResult.mpr fun c e => ?_)
  exact h nonce c ⟨nonce.val, nonce.property, e⟩

/-! ## Transactions -/

/-- The journal of a transaction starts empty, and its end is always allowed. -/
lemma safe_inTx {body : Relay α}
    (h : ∀ τ, Safe st input body (fun _ _ => True)
      ⟨p ++ [⟨.begin, (Except.ok τ : Except DbError DateTime), []⟩], some τ, []⟩) :
    Safe st input (inTx body) (fun _ _ => True) ⟨p, tx, lg⟩ := by
  have weak (x : Except RelayError α) (l : Local) : onOk (fun _ _ => True) x l := by
    cases x <;> trivial
  refine (Prog.wp_bind _ _ _).mpr ((Prog.wp_ask _ _ _).mpr fun begun a hp => ?_)
  obtain ⟨es, rfl, db, seqs, seqs', vl, s⟩ := hp
  cases s
  refine ⟨trivial, ?_⟩
  cases begun with
  | error e => exact weak _ _
  | ok τ =>
    refine (Prog.wp_bind _ _ _).mpr (Prog.wp_mono _ _ _ (fun x l _ => ?_) (h τ))
    refine (Prog.wp_bind _ _ _).mpr ((Prog.wp_ask _ _ _).mpr fun _ a hp => ?_)
    obtain ⟨es, rfl, db, seqs, seqs', vl, s⟩ := hp
    cases s
    exact ⟨trivial, weak _ _⟩

/-- A commit makes the change of its journal. -/
lemma safe_commit {P : Unit → Local → Prop}
    (ch : ∀ db, journal.Valid db lg → Change st input p db (journal.replay db lg))
    (h : P () ⟨p ++ [⟨.commit, (Except.ok () : Except DbError Unit), lg⟩], none, []⟩) :
    Safe st input commit P ⟨p, some τ, lg⟩ := by
  refine safe_bind.mpr (safe_ask.mpr fun answer a hp => ?_)
  obtain ⟨es, rfl, db, seqs, seqs', vl, s⟩ := hp
  cases s with
  | commit _ _ =>
    refine ⟨ch, safe_liftResult.mpr fun u e => ?_⟩
    cases answer with
    | ok u => exact h
    | error _ => nomatch e
  | commitFault => exact ⟨ch, safe_liftResult.mpr fun u e => nomatch e⟩

/-- A rollback ends the transaction. -/
lemma safe_rollback {P : Unit → Local → Prop}
    (h : ∀ answer, P () ⟨p ++ [⟨.rollback, answer, []⟩], none, []⟩) :
    Safe st input rollback P ⟨p, tx, lg⟩ := by
  refine safe_bind.mpr (safe_ask.mpr fun answer a hp => ?_)
  obtain ⟨es, rfl, db, seqs, seqs', vl, s⟩ := hp
  cases s
  exact ⟨trivial, safe_liftResult.mpr fun u e => h _⟩

/-- A statement runs on a database its transaction's journal is valid for. -/
lemma safe_statement {q : Query} {P : α → Local → Prop}
    {read : Except DbError q.Resp → Except RelayError α}
    (ok : ∀ r es, Permits st input ⟨p, some τ, lg⟩ ⟨.exec q, r, es⟩)
    (failed : ∀ e a, read (.error e) ≠ .ok a)
    (h : ∀ db seqs r a, journal.Valid db lg →
      (q.run (journal.replay db lg) seqs τ).resp = .ok r → read (.ok r) = .ok a →
      P a ⟨p ++ [⟨.exec q, Except.ok r, (q.run (journal.replay db lg) seqs τ).log⟩], some τ,
        lg ++ (q.run (journal.replay db lg) seqs τ).log⟩) :
    Safe st input (do liftResult (read (← ask (.exec q)))) P ⟨p, some τ, lg⟩ := by
  refine safe_bind.mpr (safe_ask.mpr fun answer a hp => ?_)
  obtain ⟨es, rfl, db, seqs, seqs', vl, s⟩ := hp
  cases s with
  | exec e =>
    cases e
    refine ⟨ok _ _, safe_liftResult.mpr fun a e => ?_⟩
    have run := h db seqs
    generalize q.run (journal.replay db lg) seqs τ = out at e run ⊢
    obtain ⟨resp, log, seqs'⟩ := out
    cases resp with
    | error err => exact absurd e (failed err a)
    | ok r => exact run r a vl rfl e
  | execFault => exact ⟨ok _ _, safe_liftResult.mpr fun a e => absurd e (failed _ a)⟩

/-- A statement whose errors are internal. -/
lemma safe_exec {q : Query} {P : q.Resp → Local → Prop}
    (ok : ∀ r es, Permits st input ⟨p, some τ, lg⟩ ⟨.exec q, r, es⟩)
    (h : ∀ db seqs r, journal.Valid db lg → (q.run (journal.replay db lg) seqs τ).resp = .ok r →
      P r ⟨p ++ [⟨.exec q, Except.ok r, (q.run (journal.replay db lg) seqs τ).log⟩], some τ,
        lg ++ (q.run (journal.replay db lg) seqs τ).log⟩) :
    Safe st input (exec q) P ⟨p, some τ, lg⟩ := by
  refine safe_statement ok (fun e a eq => nomatch eq) fun db seqs r a vl run eq => ?_
  cases eq
  exact h db seqs r vl run

/-- A statement whose unique violations are a conflict. -/
lemma safe_execUnique {q : Query} {code : ProblemCode} {P : q.Resp → Local → Prop}
    (ok : ∀ r es, Permits st input ⟨p, some τ, lg⟩ ⟨.exec q, r, es⟩)
    (h : ∀ db seqs r, journal.Valid db lg → (q.run (journal.replay db lg) seqs τ).resp = .ok r →
      P r ⟨p ++ [⟨.exec q, Except.ok r, (q.run (journal.replay db lg) seqs τ).log⟩], some τ,
        lg ++ (q.run (journal.replay db lg) seqs τ).log⟩) :
    Safe st input (execUnique code q) P ⟨p, some τ, lg⟩ := by
  refine safe_statement ok (fun e a eq => ?_) fun db seqs r a vl run eq => ?_
  · cases e <;> exact nomatch eq
  · cases eq
    exact h db seqs r vl run

/-! ## The functions of `src/db` -/

/-- A lookup yields no row, or one that satisfies its clause and stays locked. -/
lemma safe_selectSessions {filter : SessionFilter} {P : Option SessionRow → Local → Prop}
    (ok : ∀ event, input = .inbound event → (event.message? st).bind (·.lookup? st) = some filter)
    (hn : P none ⟨p ++ [⟨.exec (.selectSessions filter), Except.ok ([] : List SessionRow), []⟩],
      some τ, lg⟩)
    (hs : ∀ row, filter.accepts row → P (some row)
      ⟨p ++ [⟨.exec (.selectSessions filter), Except.ok [row], [.sessionRead row]⟩], some τ,
        lg ++ [.sessionRead row]⟩) :
    Safe st input (do liftResult (queryOpt (← exec (.selectSessions filter)))) P ⟨p, some τ, lg⟩ := by
  refine safe_bind.mpr (safe_exec (fun _ _ => ok) fun db seqs rows vl run => safe_liftResult.mpr fun o e => ?_)
  cases run
  simp only [Query.run]
  generalize eq : (journal.replay db lg).sessions.rows.filter filter.accepts = rows at e ⊢
  cases rows with
  | nil =>
    cases e
    simpa using hn
  | cons row rows =>
    cases rows with
    | nil =>
      cases e
      have mem : row ∈ (journal.replay db lg).sessions.rows.filter filter.accepts := by simp [eq]
      exact hs row (List.mem_filter.mp mem).2
    | cons row' rows => cases e

/-- A lookup of a grant yields no row, or the grant of the subject. -/
lemma safe_findActiveGrant {domain : String} {subjectHash : Bytes} {P : Option GrantRow → Local → Prop}
    (hn : P none ⟨p ++ [⟨.exec (.selectGrants domain subjectHash),
      Except.ok ([] : List GrantRow), []⟩], some τ, lg⟩)
    (hs : ∀ g : GrantRow, g.domain = domain → g.subjectHash = subjectHash → P (some g)
      ⟨p ++ [⟨.exec (.selectGrants domain subjectHash), Except.ok [g], [.grantRead g]⟩], some τ,
        lg ++ [.grantRead g]⟩) :
    Safe st input (findActiveGrant domain subjectHash) P ⟨p, some τ, lg⟩ := by
  refine safe_bind.mpr (safe_exec (fun _ _ => trivial) fun db seqs rows vl run => safe_liftResult.mpr fun o e => ?_)
  cases run
  simp only [Query.run]
  generalize eq : (journal.replay db lg).grants.rows.filter
    (fun g => g.domain == domain && g.subjectHash == subjectHash) = rows at e ⊢
  cases rows with
  | nil =>
    cases e
    simpa using hn
  | cons g rows =>
    cases rows with
    | nil =>
      cases e
      have mem : g ∈ (journal.replay db lg).grants.rows.filter
          (fun g => g.domain == domain && g.subjectHash == subjectHash) := by simp [eq]
      have acc := (List.mem_filter.mp mem).2
      simp only [Bool.and_eq_true, beq_iff_eq] at acc
      exact hs g acc.1 acc.2
    | cons g' rows => cases e

/-- A reserved key is new. -/
lemma safe_reserve {code : ProblemCode} {key : ReplayKey} {t : DateTime} {P : Unit → Local → Prop}
    (h : P () ⟨p ++ [⟨.exec (.insertReplay key t), Except.ok (1 : Nat), [.replayInsert ⟨key, t⟩]⟩],
      some τ, lg ++ [.replayInsert ⟨key, t⟩]⟩) :
    Safe st input (reserve code key t) P ⟨p, some τ, lg⟩ := by
  refine safe_bind.mpr (safe_execUnique (fun _ _ => trivial) fun db seqs n vl run => safe_pure.mpr ?_)
  simp only [Query.run] at run ⊢
  split at run
  · cases run
  · rename_i free
    cases run
    rwa [if_neg free]

/-- A session that the transaction has read, and not changed, is updated. -/
lemma safe_casUpdate {s : SessionRow} {set : SessionSet} {P : Bool → Local → Prop}
    (read : .sessionRead s ∈ lg) (mem : ∀ db, journal.Valid db lg → s ∈ (journal.replay db lg).sessions)
    (h : P true ⟨p ++ [⟨.exec (.casUpdate s.id s.version set), Except.ok (1 : Nat),
      [.sessionUpdate s set]⟩], some τ, lg ++ [.sessionUpdate s set]⟩) :
    Safe st input (casUpdate s.id s.version set) P ⟨p, some τ, lg⟩ := by
  refine safe_bind.mpr (safe_execUnique (fun _ _ => ⟨s, read, rfl⟩) fun db seqs n vl run =>
    safe_pure.mpr ?_)
  simp only [Query.run, find_session (mem db vl)] at run ⊢
  split at run
  · rename_i le
    cases run
    rwa [if_pos le]
  · cases run

/-- An active grant that the transaction has read is revoked. -/
lemma safe_markRevoked {g : GrantRow} {P : Unit → Local → Prop} (active : g.revokedAt = none)
    (mem : ∀ db, journal.Valid db lg → g ∈ (journal.replay db lg).grants)
    (h : P () ⟨p ++ [⟨.exec (.markRevoked g.id), Except.ok (1 : Nat),
      [.grantUpdate g (.revoke τ)]⟩], some τ, lg ++ [.grantUpdate g (.revoke τ)]⟩) :
    Safe st input (markRevoked g.id) P ⟨p, some τ, lg⟩ := by
  refine safe_bind.mpr (safe_exec (fun _ _ => trivial) fun db seqs n vl run => safe_pure.mpr ?_)
  simp only [Query.run, find_grant (mem db vl) active] at run ⊢
  cases run
  exact h

/-- The grant of the subject is linked, or a new one is inserted. -/
lemma safe_upsertGrant {new : NewGrant} {P : GrantRow → Local → Prop}
    (hu : ∀ g a : _, g.domain = new.domain → g.subjectHash = new.subjectHash →
      P ((GrantSet.relink new.sessionId new.nonceHash).on g)
        ⟨p ++ [a], some τ, lg ++ [.grantUpdate g (.relink new.sessionId new.nonceHash)]⟩)
    (hi : ∀ id a, P (new.row id) ⟨p ++ [a], some τ, lg ++ [.grantInsert (new.row id)]⟩) :
    Safe st input (upsertGrant new) P ⟨p, some τ, lg⟩ := by
  refine safe_exec (fun _ _ => trivial) fun db seqs row vl run => ?_
  simp only [Query.run] at run ⊢
  split at run
  · rename_i g e
    cases run
    have acc := List.find?_some e
    simp only [Bool.and_eq_true, beq_iff_eq] at acc
    exact hu g _ acc.1 acc.2
  · rename_i e
    split at run
    · cases run
    · rename_i free
      cases run
      simp only [if_neg free]
      exact hi _ _

/-- A job is inserted, or its `jti` was taken. -/
lemma safe_enqueue {new : NewJob} {P : Unit → Local → Prop}
    (jobs : ∀ db, (journal.replay db lg).jobs = db.jobs)
    (taken : P () ⟨p ++ [⟨.exec (.enqueue new), Except.ok (0 : Nat), []⟩], some τ, lg⟩)
    (h : ∀ id, P () ⟨p ++ [⟨.exec (.enqueue new), Except.ok (1 : Nat), [.jobInsert (new.row id τ)]⟩],
      some τ, lg ++ [.jobInsert (new.row id τ)]⟩) :
    Safe st input (enqueue new) P ⟨p, some τ, lg⟩ := by
  refine safe_bind.mpr (safe_exec (fun _ _ => jobs) fun db seqs n vl run => safe_pure.mpr ?_)
  simp only [Query.run] at run ⊢
  split at run
  · rename_i dup
    cases run
    simpa [dup] using taken
  · rename_i nodup
    split at run
    · cases run
    · rename_i free
      cases run
      simp only [if_neg nodup, if_neg free]
      exact h _

/-- A tick claims jobs. -/
lemma safe_claimDue {P : List DeliveryJob → Local → Prop}
    (h : ∀ jobs es, P jobs ⟨p ++ [⟨.auto (.claimDue 10), Except.ok jobs, es⟩], tx, lg⟩) :
    Safe st .tick (claimDue 10) P ⟨p, tx, lg⟩ := by
  refine safe_bind.mpr (safe_ask.mpr fun answer a hp => ?_)
  obtain ⟨es, rfl, db, seqs, seqs', vl, s⟩ := hp
  refine ⟨⟨rfl, rfl⟩, safe_liftResult.mpr fun jobs e => ?_⟩
  cases answer with
  | error _ => nomatch e
  | ok r =>
    cases e
    exact h jobs es

/-- It may mark the jobs it has claimed as delivered. -/
lemma safe_markDelivered {j : DeliveryJob} (c : Claimed p j) :
    Safe st .tick (markDelivered j.id) (fun _ _ => True) ⟨p, tx, lg⟩ := by
  refine safe_bind.mpr (safe_bind.mpr (safe_ask.mpr fun answer a hp => ?_))
  obtain ⟨es, rfl, db, seqs, seqs', vl, s⟩ := hp
  exact ⟨⟨rfl, j, c, rfl⟩, safe_liftResult.mpr fun n _ => safe_pure.mpr trivial⟩

/-- It may mark them as failed after the last attempt. -/
lemma safe_markFailed {j : DeliveryJob} (c : Claimed p j) (many : 8 ≤ j.attempts) :
    Safe st .tick (markFailed j.id) (fun _ _ => True) ⟨p, tx, lg⟩ := by
  refine safe_bind.mpr (safe_bind.mpr (safe_ask.mpr fun answer a hp => ?_))
  obtain ⟨es, rfl, db, seqs, seqs', vl, s⟩ := hp
  exact ⟨⟨rfl, j, c, rfl, many⟩, safe_liftResult.mpr fun n _ => safe_pure.mpr trivial⟩

end Relay

end WebLoginRelay
