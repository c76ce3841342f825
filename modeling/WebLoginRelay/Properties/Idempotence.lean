import WebLoginRelay.Properties.Registrations

/-!
# Repeated registrations

What `register_session` answers on a reachable database, when the request passes its checks and nothing
fails: a session is created if there is none with its session id or its nonce, the answer to a request that
created a session is that it is registered, and every other request is a conflict.
-/

namespace WebLoginRelay
open Text Txn Relay

variable {st : AppState} {S S' : Sys} {lb : Label} {ls : List Label} {db : Db}

/-- AES-256-GCM with a 96-bit nonce encrypts every message of less than 64 GiB. -/
def Crates.AeadEncrypts (X : Crates) : Prop :=
  ∀ key nonce m : Bytes, key.length = 32 → nonce.length = nonceLen → m.length < 2 ^ 36 →
    (X.aesGcmEncrypt key nonce m).isSome

/-! ## Fresh ids -/

/-- The ids of sessions were drawn from their sequence. -/
structure Sys.Fresh (S : Sys) : Prop where
  rows : ∀ row ∈ S.db.sessions, row.id < S.seqs.sessions
  open_ : ∀ u new, .sessionInsert new ∈ S.journalOf u → new.id < S.seqs.sessions

/-- A statement draws the ids of the sessions it inserts. -/
lemma Query.run_fresh (view : Db) (seqs : Seqs) (now : DateTime) (q : Query) :
    seqs.sessions ≤ (q.run view seqs now).seqs.sessions ∧
      ∀ new, .sessionInsert new ∈ (q.run view seqs now).log → new.id < (q.run view seqs now).seqs.sessions := by
  by_cases insert : ∃ new, q = .insertSession new
  · obtain ⟨new, rfl⟩ := insert
    simp only [run]
    split
    · exact ⟨Nat.le_succ _, fun _ h => by cases h⟩
    · refine ⟨Nat.le_succ _, fun row h => ?_⟩
      cases List.mem_singleton.mp h
      exact Nat.lt_succ_self _
  · have other (new : SessionRow) : .sessionInsert new ∉ (q.run view seqs now).log := by
      intro h
      by_cases update : ∃ id version set, q = .casUpdate id version set
      · obtain ⟨id, version, set, rfl⟩ := update
        simp only [run] at h
        split at h
        · cases h
        · split at h
          · cases List.mem_singleton.mp h
          · cases h
      · cases run_log (fun new e => insert ⟨new, e⟩) (fun id version set e => update ⟨id, version, set, e⟩) _ h
    refine ⟨?_, fun new h => absurd h (other new)⟩
    cases q with
    | insertSession new => exact absurd ⟨new, rfl⟩ insert
    | selectSessions filter => exact Nat.le_refl _
    | selectGrants domain subjectHash => exact Nat.le_refl _
    | casUpdate id version set =>
      simp only [run]
      split
      · exact Nat.le_refl _
      · split <;> exact Nat.le_refl _
    | insertReplay key expiresAt =>
      simp only [run]
      split <;> exact Nat.le_refl _
    | upsertGrant new =>
      simp only [run]
      split
      · exact Nat.le_refl _
      · split <;> exact Nat.le_refl _
    | markRevoked id =>
      simp only [run]
      split <;> exact Nat.le_refl _
    | enqueue new =>
      simp only [run]
      split
      · exact Nat.le_refl _
      · split <;> exact Nat.le_refl _

/-- So does an action. -/
lemma OpStep.fresh {seqs seqs' : Seqs} {l : Local} {a : Act} (o : OpStep db seqs l a seqs')
    (h : ∀ new, .sessionInsert new ∈ l.log → new.id < seqs.sessions) :
    seqs.sessions ≤ seqs'.sessions ∧
      (∀ new, .sessionInsert new ∈ (l.after a).log → new.id < seqs'.sessions) ∧
      ∀ new, .sessionInsert new ∈ a.writes → new.id < seqs'.sessions := by
  have jobs {au : Auto} {r es} (o : OpStep db seqs l ⟨.auto au, r, es⟩ seqs') (new : SessionRow)
      (mem : .sessionInsert new ∈ es) : new.id < seqs.sessions := by
    obtain ⟨_, _, e⟩ := o.auto_log _ mem
    nomatch e
  have o' := o
  cases o with
  | now t => exact ⟨Nat.le_refl _, h, fun new mem => nomatch mem⟩
  | fillBytes b => exact ⟨Nat.le_refl _, h, fun new mem => nomatch mem⟩
  | request answer => exact ⟨Nat.le_refl _, h, fun new mem => nomatch mem⟩
  | sendNotice answer => exact ⟨Nat.le_refl _, h, fun new mem => nomatch mem⟩
  | auto ok reorders => exact ⟨Nat.le_refl _, h, jobs o'⟩
  | autoLost => exact ⟨Nat.le_refl _, h, jobs o'⟩
  | autoFault => exact ⟨Nat.le_refl _, h, jobs o'⟩
  | @exec q now tx =>
    obtain ⟨le, drawn⟩ := q.run_fresh (journal.replay db l.log) seqs now
    generalize q.run (journal.replay db l.log) seqs now = out at le drawn ⊢
    obtain ⟨resp, log, seqs'⟩ := out
    refine ⟨le, fun new mem => ?_, fun new mem => nomatch mem⟩
    cases resp with
    | error e => nomatch mem
    | ok r =>
      obtain mem | mem := List.mem_append.mp mem
      · exact Nat.lt_of_lt_of_le (h new mem) le
      · exact drawn new mem
  | begin answer =>
    refine ⟨Nat.le_refl _, fun new mem => ?_, fun new mem => nomatch mem⟩
    cases answer with
    | error e => exact h new mem
    | ok τ => nomatch mem
  | execFault => exact ⟨Nat.le_refl _, fun new mem => (nomatch mem), fun new mem => nomatch mem⟩
  | commit answer tx => exact ⟨Nat.le_refl _, fun new mem => (nomatch mem), fun new mem => h new mem⟩
  | commitFault => exact ⟨Nat.le_refl _, fun new mem => (nomatch mem), fun new mem => nomatch mem⟩
  | rollback answer => exact ⟨Nat.le_refl _, fun new mem => (nomatch mem), fun new mem => nomatch mem⟩
  | drop => exact ⟨Nat.le_refl _, fun new mem => (nomatch mem), fun new mem => nomatch mem⟩

/-- A step keeps the ids fresh. -/
lemma Sys.Fresh.step (fresh : S.Fresh) (s : Step st S lb S') : S'.Fresh := by
  cases s with
  | @spawn t input free wf =>
    refine ⟨fresh.rows, fun u new mem => ?_⟩
    by_cases hu : u = t
    · subst hu
      simp [Sys.journalOf, Sys.set] at mem
    · exact fresh.open_ u new (by simpa [Sys.journalOf, Sys.set, hu] using mem)
  | @cancel t input p l task =>
    refine ⟨fresh.rows, fun u new mem => ?_⟩
    by_cases hu : u = t
    · subst hu
      simp [Sys.journalOf, Sys.set] at mem
    · exact fresh.open_ u new (by simpa [Sys.journalOf, Sys.set, hu] using mem)
  | @act t input o k l r es seqs task o' free =>
    have own : ∀ new, .sessionInsert new ∈ l.log → new.id < S.seqs.sessions := by
      intro new mem
      exact fresh.open_ t new (by simpa [Sys.journalOf, task] using mem)
    obtain ⟨le, after, writes⟩ := o'.fresh own
    refine ⟨fun row mem => ?_, fun u new mem => ?_⟩
    · obtain ⟨old, mem, id_eq⟩ | ⟨new, mem, id_eq⟩ := inserted_of_replay mem
      · exact Nat.lt_of_lt_of_le (id_eq ▸ fresh.rows old mem) le
      · exact id_eq ▸ writes new mem
    · by_cases hu : u = t
      · subst hu
        exact after new (by simpa [Sys.journalOf, Sys.set] using mem)
      · exact Nat.lt_of_lt_of_le (fresh.open_ u new (by simpa [Sys.journalOf, Sys.set, hu] using mem)) le

/-- The ids are fresh in every run. -/
lemma Run.fresh (r : Run st ls S) : S.Fresh := by
  induction r with
  | init => exact ⟨fun _ h => (nomatch h), fun _ _ h => (nomatch h)⟩
  | step _ s ih => exact ih.step s

/-! ## A registration that nothing fails -/

/-- Nothing fails in the database. -/
structure Env.Serves (env : Env) : Prop where
  begun : ∀ n, ∃ τ, env.begun n = .ok τ
  answered : ∀ n, env.fault n = false
  committed : ∀ n, env.committed n = .ok ()

section Serves
variable {env : Env} (serves : env.Serves) (db : Db) (seqs : Seqs) (p : List Act) (lg : List Entry)

/-- A text that is not huge is encrypted. -/
lemma Env.run_encrypt (env : Env) (aead : st.crates.AeadEncrypts) (key : st.atRest.length = 32) {m : Bytes}
    (short : m.length < 2 ^ 36) (db : Db) (seqs : Seqs) (l : Local) :
    ∃ c p, env.run (st.encrypt m).run db seqs l = ⟨.ok c, db, seqs, ⟨p, l.tx, l.log⟩⟩ := by
  let nonce := env.bytes l.past.length nonceLen
  obtain ⟨c, e⟩ := Option.isSome_iff_exists.mp (aead st.atRest nonce.val m key nonce.property short)
  have sealed : WebLoginRelay.encrypt st.crates st.atRest nonce.val m = .ok (nonce.val ++ c) := by
    rw [encrypt, e]
  have run : env.run (st.encrypt m).run db seqs l = ⟨WebLoginRelay.encrypt st.crates st.atRest nonce.val m, db,
      seqs, l.after ⟨.fillBytes nonceLen, nonce, []⟩⟩ := rfl
  rw [run, sealed]
  exact ⟨_, _, rfl⟩

include serves

/-- A transaction begins and ends. -/
lemma Env.Serves.run_inTx {α : Type} (l : Local) (body : Relay α) :
    ∃ p τ, (env.run (inTx body).run db seqs l).result = (env.run body.run db seqs ⟨p, some τ, []⟩).result ∧
      (env.run (inTx body).run db seqs l).db = (env.run body.run db seqs ⟨p, some τ, []⟩).db := by
  obtain ⟨τ, begun⟩ := serves.begun l.past.length
  let l₁ := l.after ⟨.begin, (Except.ok τ : Except DbError DateTime), []⟩
  have run : env.run (inTx body).run db seqs l = env.run (do
      let r ← body.run
      let _ : Unit ← Prog.ask Op.drop
      pure r) db seqs l₁ := by
    have first (k : Except DbError DateTime → Prog Op Op.Resp (Except RelayError α)) :
        env.run (Prog.ask Op.begin >>= k) db seqs l =
          env.run (k (env.begun l.past.length)) db seqs (l.after ⟨.begin, env.begun l.past.length, []⟩) := rfl
    refine (first _).trans ?_
    rw [begun]
  rw [run, env.run_bind]
  exact ⟨_, τ, rfl, rfl⟩

/-- A statement runs. -/
lemma Env.Serves.run_ask {q : Query} {r : q.Resp} {τ : DateTime} {log : List Entry} {seqs' : Seqs}
    (out : q.run (journal.replay db lg) seqs τ = ⟨.ok r, log, seqs'⟩) :
    ∃ p', env.run (ask (.exec q)).run db seqs ⟨p, some τ, lg⟩ =
      ⟨.ok (.ok r), db, seqs', ⟨p', some τ, lg ++ log⟩⟩ := by
  have answer : env.answer db seqs ⟨p, some τ, lg⟩ (.exec q) = ⟨Except.ok r, log, seqs'⟩ := by
    simp only [Env.answer, serves.answered, out]
  have run : env.run (ask (.exec q)).run db seqs ⟨p, some τ, lg⟩ =
      ⟨.ok (env.answer db seqs ⟨p, some τ, lg⟩ (.exec q)).resp, db,
        (env.answer db seqs ⟨p, some τ, lg⟩ (.exec q)).seqs,
        (⟨p, some τ, lg⟩ : Local).after (env.answer db seqs ⟨p, some τ, lg⟩ (.exec q)).act⟩ := rfl
  rw [run, answer]
  exact ⟨_, rfl⟩

/-- A statement that has an answer is given it. -/
lemma Env.Serves.run_exec {q : Query} {r : q.Resp} {τ : DateTime} {log : List Entry} {seqs' : Seqs}
    (out : q.run (journal.replay db lg) seqs τ = ⟨.ok r, log, seqs'⟩) :
    ∃ p', env.run (exec q).run db seqs ⟨p, some τ, lg⟩ = ⟨.ok r, db, seqs', ⟨p', some τ, lg ++ log⟩⟩ := by
  obtain ⟨p', run⟩ := serves.run_ask db seqs p lg out
  exact ⟨p', (env.run_bind_ok run).trans (env.run_lift_ok _ _ _ rfl)⟩

/-- An insertion that has an answer is given it. -/
lemma Env.Serves.run_execUnique {q : Query} {r : q.Resp} {τ : DateTime} {log : List Entry} {seqs' : Seqs}
    (code : ProblemCode) (out : q.run (journal.replay db lg) seqs τ = ⟨.ok r, log, seqs'⟩) :
    ∃ p', env.run (execUnique code q).run db seqs ⟨p, some τ, lg⟩ =
      ⟨.ok r, db, seqs', ⟨p', some τ, lg ++ log⟩⟩ := by
  obtain ⟨p', run⟩ := serves.run_ask db seqs p lg out
  exact ⟨p', (env.run_bind_ok run).trans (env.run_lift_ok _ _ _ rfl)⟩

/-- A commit is answered. -/
lemma Env.Serves.run_commit (τ : DateTime) :
    ∃ l', env.run commit.run db seqs ⟨p, some τ, lg⟩ = ⟨.ok (), journal.replay db lg, seqs, l'⟩ := by
  have answer : env.answer db seqs ⟨p, some τ, lg⟩ .commit = ⟨Except.ok (), lg, seqs⟩ := by
    simp only [Env.answer, serves.answered, serves.committed]
  have run : env.run commit.run db seqs ⟨p, some τ, lg⟩ =
      ⟨orInternal (env.answer db seqs ⟨p, some τ, lg⟩ .commit).resp,
        journal.replay db (env.answer db seqs ⟨p, some τ, lg⟩ .commit).act.writes,
        (env.answer db seqs ⟨p, some τ, lg⟩ .commit).seqs,
        (⟨p, some τ, lg⟩ : Local).after (env.answer db seqs ⟨p, some τ, lg⟩ .commit).act⟩ := rfl
  rw [run, answer]
  exact ⟨_, rfl⟩

end Serves

/-- What `insert_registered` compares. -/
def SessionRow.SameRegistration (row : SessionRow) (new : NewSession) : Prop :=
  row.registrationHash = new.registrationHash ∧ row.nonceHash = new.nonceHash ∧
    row.qrSignature = new.qrSignature ∧ row.registrationSignature = new.registrationSignature

/-- What `insert_registered` does. -/
inductive InsertRegistered (db : Db) (new : NewSession) (id : Nat) : Except RelayError InsertOutcome → Db → Prop
  | created : ¬ db.sessions.Clashes (new.row id) →
    InsertRegistered db new id (.ok .created) (db.addSession (new.row id))
  | identical {row} : row ∈ db.sessions → row.domain = new.domain → row.sessionId = new.sessionId →
    row.SameRegistration new → InsertRegistered db new id (.ok .identical) db
  | different {row} : row ∈ db.sessions → row.domain = new.domain → row.sessionId = new.sessionId →
    ¬ row.SameRegistration new → InsertRegistered db new id (.error (.problem .sessionConflict)) db
  | taken : (∀ row ∈ db.sessions, ¬ (row.domain = new.domain ∧ row.sessionId = new.sessionId)) →
    db.sessions.Clashes (new.row id) → InsertRegistered db new id (.error (.problem .sessionConflict)) db

/-- A part of a call that fails. -/
lemma Env.run_bind_error (env : Env) {α β : Type} {x : Relay α} {f : α → Relay β} {e : RelayError} {db db' : Db}
    {seqs seqs' : Seqs} {l l' : Local} (h : env.run x.run db seqs l = ⟨.error e, db', seqs', l'⟩) :
    env.run (x >>= f).run db seqs l = ⟨.error e, db', seqs', l'⟩ := by
  rw [ExceptT.run_bind, Env.run_bind, h]
  rfl

/-- At most one session has a session id. -/
lemma filter_session (db : Db) (domain sessionId : String) :
    (db.sessions.rows.filter (SessionFilter.session domain sessionId).accepts = [] ∧
        ∀ row ∈ db.sessions, ¬ (row.domain = domain ∧ row.sessionId = sessionId)) ∨
      ∃ row ∈ db.sessions, row.domain = domain ∧ row.sessionId = sessionId ∧
        db.sessions.rows.filter (SessionFilter.session domain sessionId).accepts = [row] := by
  have accepted {row : SessionRow} : row ∈ db.sessions.rows.filter (SessionFilter.session domain sessionId).accepts ↔
      row ∈ db.sessions ∧ row.domain = domain ∧ row.sessionId = sessionId := by
    rw [List.mem_filter, SessionFilter.accepts_session, Table.mem_rows]
  have unique := db.sessions.unique.filter (SessionFilter.session domain sessionId).accepts
  generalize db.sessions.rows.filter (SessionFilter.session domain sessionId).accepts = rows at accepted unique ⊢
  cases rows with
  | nil =>
    refine .inl ⟨rfl, fun row mem key => ?_⟩
    cases accepted.mpr ⟨mem, key⟩
  | cons row rows =>
    obtain ⟨mem, domain_eq, sessionId_eq⟩ := accepted.mp List.mem_cons_self
    refine .inr ⟨row, mem, domain_eq, sessionId_eq, ?_⟩
    cases rows with
    | nil => rfl
    | cons row' rows =>
      obtain ⟨_, domain_eq', sessionId_eq'⟩ := accepted.mp (List.mem_cons_of_mem _ List.mem_cons_self)
      obtain ⟨differ, _⟩ := List.pairwise_cons.mp unique
      exact absurd (.inr (.inl ⟨domain_eq.trans domain_eq'.symm, sessionId_eq.trans sessionId_eq'.symm⟩))
        (differ row' List.mem_cons_self)

section Serves
variable {env : Env} (serves : env.Serves) (db : Db) (seqs : Seqs) (p : List Act) (τ : DateTime)
include serves

/-- `get_by_session` finds the session there is. -/
lemma Env.Serves.run_getBySession (domain sessionId : String) :
    ∃ p', (∀ row ∈ db.sessions, ¬ (row.domain = domain ∧ row.sessionId = sessionId)) ∧
        env.run (getBySession domain sessionId).run db seqs ⟨p, some τ, []⟩ =
          ⟨.ok none, db, seqs, ⟨p', some τ, []⟩⟩ ∨
      ∃ row ∈ db.sessions, row.domain = domain ∧ row.sessionId = sessionId ∧
        env.run (getBySession domain sessionId).run db seqs ⟨p, some τ, []⟩ =
          ⟨.ok (some row), db, seqs, ⟨p', some τ, [.sessionRead row]⟩⟩ := by
  obtain ⟨e, none⟩ | ⟨row, mem, domain_eq, sessionId_eq, e⟩ := filter_session db domain sessionId
  · have out : (Query.selectSessions (.session domain sessionId)).run db seqs τ =
        ⟨.ok ([] : List SessionRow), [], seqs⟩ := by rw [Query.run, e]; rfl
    obtain ⟨p', selected⟩ := serves.run_exec db seqs p [] out
    exact ⟨p', .inl ⟨none, (env.run_bind_ok selected).trans (env.run_lift_ok _ _ _ rfl)⟩⟩
  · have out : (Query.selectSessions (.session domain sessionId)).run db seqs τ =
        ⟨.ok [row], [.sessionRead row], seqs⟩ := by rw [Query.run, e]; rfl
    obtain ⟨p', selected⟩ := serves.run_exec db seqs p [] out
    exact ⟨p', .inr ⟨row, mem, domain_eq, sessionId_eq,
      (env.run_bind_ok selected).trans (env.run_lift_ok _ _ _ rfl)⟩⟩

/-- `insert_registered` in a new transaction. -/
lemma Env.Serves.run_insertRegistered (new : NewSession) {t : DateTime}
    (representable : millisToUtc st (new.exp + replayGraceMs) = .ok t) :
    ∃ r seqs' p' lg, env.run (insertRegistered st new).run db seqs ⟨p, some τ, []⟩ =
      ⟨r, db, seqs', ⟨p', some τ, lg⟩⟩ ∧ InsertRegistered db new seqs.sessions r (journal.replay db lg) := by
  have start : env.run (insertRegistered st new).run db seqs ⟨p, some τ, []⟩ = _ :=
    env.run_bind_ok (env.run_lift_ok _ _ _ representable)
  rw [start]
  by_cases clashes : db.sessions.Clashes (new.row seqs.sessions)
  · have out : (Query.insertSession new).run db seqs τ =
        ⟨.ok (0 : Nat), [], { seqs with sessions := seqs.sessions + 1 }⟩ := if_pos clashes
    obtain ⟨p₁, inserted⟩ := serves.run_execUnique db seqs p [] .sessionConflict out
    rw [env.run_bind_ok inserted, List.append_nil, if_neg (by decide)]
    obtain ⟨p₂, ⟨none, looked⟩ | ⟨row, mem, domain_eq, sessionId_eq, looked⟩⟩ :=
      serves.run_getBySession db { seqs with sessions := seqs.sessions + 1 } p₁ τ new.domain new.sessionId
    · rw [env.run_bind_ok looked]
      exact ⟨_, _, p₂, [], rfl, .taken none clashes⟩
    · rw [env.run_bind_ok looked]
      dsimp only
      split
      · rename_i same
        exact ⟨_, _, p₂, [.sessionRead row], rfl, .identical mem domain_eq sessionId_eq same⟩
      · rename_i differs
        exact ⟨_, _, p₂, [.sessionRead row], rfl, .different mem domain_eq sessionId_eq differs⟩
  · have out : (Query.insertSession new).run db seqs τ =
        ⟨.ok (1 : Nat), [.sessionInsert (new.row seqs.sessions)], { seqs with sessions := seqs.sessions + 1 }⟩ :=
      if_neg clashes
    obtain ⟨p₁, inserted⟩ := serves.run_execUnique db seqs p [] .sessionConflict out
    rw [env.run_bind_ok inserted, if_pos rfl]
    exact ⟨_, _, p₁, [.sessionInsert (new.row seqs.sessions)], rfl, .created clashes⟩

/-- `register_session`, once the request has been verified. -/
lemma Env.Serves.run_storeSession (aead : st.crates.AeadEncrypts) (key : st.atRest.length = 32)
    {request : RegistrationRequest} (short : (asBytes request.nonce).length < 2 ^ 36) {t : DateTime}
    (representable : millisToUtc st (request.exp + replayGraceMs) = .ok t) (metadata : SiteMetadata) (l : Local) :
    ∃ ct r db', InsertRegistered db (request.newSession st metadata ct) seqs.sessions r db' ∧
      (env.run (storeSession st request metadata).run db seqs l).result =
        r.map (fun outcome => (⟨1, request.sessionId, request.exp⟩, outcome == .created)) ∧
      (env.run (storeSession st request metadata).run db seqs l).db = db' := by
  obtain ⟨ct, p, encrypted⟩ := env.run_encrypt aead key short db seqs l
  rw [storeSession, env.run_bind_ok encrypted]
  obtain ⟨p₁, τ, result, db_eq⟩ := serves.run_inTx db seqs ⟨p, l.tx, l.log⟩ (do
    let outcome ← insertRegistered st (request.newSession st metadata ct)
    commit
    return ((⟨1, request.sessionId, request.exp⟩ : RegistrationResponse), outcome == .created))
  rw [result, db_eq]
  obtain ⟨r, seqs', p₂, lg, inserted, outcome⟩ :=
    serves.run_insertRegistered db seqs p₁ τ (request.newSession st metadata ct) representable
  refine ⟨ct, r, _, outcome, ?_⟩
  cases r with
  | ok o =>
    obtain ⟨l', committed⟩ := serves.run_commit db seqs' p₂ lg τ
    rw [env.run_bind_ok inserted, env.run_bind_ok committed]
    exact ⟨rfl, rfl⟩
  | error e =>
    rw [env.run_bind_error inserted]
    refine ⟨rfl, ?_⟩
    generalize journal.replay db lg = db' at outcome
    cases outcome <;> rfl

end Serves

/-! ## Outcomes -/

/-- The request passes the checks of `register_session`, and its rows can be kept for long enough. -/
structure Env.Passes (env : Env) (st : AppState) (request : RegistrationRequest) : Prop where
  valid : request.validate = .ok ()
  unexpired : env.now 0 < request.exp
  verified : ∃ metadata body qr registration,
    env.site 1 (metadataRequest request.domain) = .ok ⟨200, body⟩ ∧
    strictFromSlice st.crates SiteMetadata.fromValue body = .ok metadata ∧
    metadata.validateForDomain st.crates request.domain = .ok () ∧
    request.qrCanonical st.crates = .ok qr ∧
    Ed25519.verify st.crates metadata.publicKey qr request.qrSignature = .ok () ∧
    request.registrationCanonical st.crates = .ok registration ∧
    Ed25519.verify st.crates metadata.publicKey registration request.registrationSignature = .ok ()
  representable : ∃ t, millisToUtc st (request.exp + replayGraceMs) = .ok t

/-- A call on such a request. -/
lemma Env.Passes.call {env : Env} {request : RegistrationRequest} (passes : env.Passes st request)
    (serves : env.Serves) (aead : st.crates.AeadEncrypts) (key : st.atRest.length = 32) (db : Db) (seqs : Seqs) :
    ∃ metadata ct r db', InsertRegistered db (request.newSession st metadata ct) seqs.sessions r db' ∧
      (env.call st (.register request) db seqs).result = .registered
        (r.map fun outcome => (⟨1, request.sessionId, request.exp⟩, outcome == .created)) ∧
      (env.call st (.register request) db seqs).db = db' := by
  obtain ⟨metadata, body, qr, registration, site, parsed, signed, qr_eq, qrSigned, registration_eq,
    registrationSigned⟩ := passes.verified
  obtain ⟨t, representable⟩ := passes.representable
  have short : (asBytes request.nonce).length < 2 ^ 36 := by
    obtain ⟨_, _, nonce, _⟩ := RegistrationRequest.validate_ok passes.valid
    obtain ⟨_, le, _⟩ := validateId_iff.mp nonce
    have bytes := length_asBytes_ofList request.nonce.toList
    rw [String.ofList_toList, String.length_toList] at bytes
    omega
  have run := env.run_registerSession db seqs passes.valid (Int64.not_le.mpr passes.unexpired) site parsed signed
    qr_eq qrSigned registration_eq registrationSigned
  obtain ⟨ct, r, db', outcome, result, db_eq⟩ :=
    serves.run_storeSession db seqs aead key short representable metadata { past := [⟨.now, env.now 0, []⟩,
      ⟨.request (metadataRequest request.domain), Except.ok ⟨200, body⟩, []⟩] }
  refine ⟨metadata, ct, r, db', outcome, ?_⟩
  rw [Env.call, Input.prog, map_eq_pure_bind, Env.run_bind, run]
  exact ⟨congrArg Result.registered result, db_eq⟩

/-- The hash of a request determines it. -/
lemma RegistrationRequest.eq_of_hash (hmac : st.crates.HmacCollisionFree) (json : st.crates.JsonCorrect)
    {r r' : RegistrationRequest}
    (e : keyedHash st.crates st.lookupPepper (st.crates.jsonToVec r.toValue) =
      keyedHash st.crates st.lookupPepper (st.crates.jsonToVec r'.toValue)) : r = r' := by
  have h := congrArg (Json.strictMap []) (jsonToVec_inj json (by simp) (by simp) (by simp) (by simp) (hmac _ _ _ e))
  rw [Json.strictMap_ofScalar (by simp) (by simp) (by simp), Json.strictMap_ofScalar (by simp) (by simp) (by simp)] at h
  cases r
  cases r'
  simp only [Option.some.injEq, List.cons.injEq, Prod.mk.injEq, Value.int.injEq, Value.str.injEq, true_and,
    and_true] at h
  rw [RegistrationRequest.mk.injEq]
  exact h

/-- A session of the domain has the session id or the nonce of the request. -/
def Claims (ls : List Label) (db : Db) (request : RegistrationRequest) : Prop :=
  ∃ row ∈ db.sessions, row.domain = request.domain ∧
    (row.sessionId = request.sessionId ∨ ∃ request', Created ls row.id request' ∧ request'.nonce = request.nonce)

/-- A session is there that the same request has created. -/
def Repeated (ls : List Label) (db : Db) (request : RegistrationRequest) : Prop :=
  ∃ row ∈ db.sessions, Created ls row.id request

namespace Env.Final
variable (F : Env.Final Result) (st : AppState) (request : RegistrationRequest) (db : Db)

/-- The session was created, and its row is the only change. -/
def IsCreated : Prop := F.result = .registered (.ok (⟨1, request.sessionId, request.exp⟩, true)) ∧
  ∃ row, row.state = .siteRegistered ∧ request.Matches st row ∧ F.db = db.addSession row ∧
    F.db.sessions.rows = db.sessions.rows ++ [row]

/-- The session was registered before, and nothing has changed. -/
def IsRepeated : Prop :=
  F.result = .registered (.ok (⟨1, request.sessionId, request.exp⟩, false)) ∧ F.db = db

/-- The registration was refused, and nothing has changed. -/
def IsConflict : Prop := F.result = .registered (.error (.problem .sessionConflict)) ∧ F.db = db

end Env.Final

/-- The three outcomes of a registration. -/
lemma Run.registration_cases (r : Run st ls S) (hmac : st.crates.HmacCollisionFree) (json : st.crates.JsonCorrect)
    (aead : st.crates.AeadEncrypts) (key : st.atRest.length = 32) {env : Env} (serves : env.Serves)
    {request : RegistrationRequest} (passes : env.Passes st request) :
    let F := env.call st (.register request) S.db S.seqs
    F.IsCreated st request S.db ∧ ¬ Claims ls S.db request ∧ ¬ Repeated ls S.db request ∨
      F.IsRepeated request S.db ∧ Claims ls S.db request ∧ Repeated ls S.db request ∨
      F.IsConflict S.db ∧ Claims ls S.db request ∧ ¬ Repeated ls S.db request := by
  obtain ⟨metadata, ct, result, db', outcome, result_eq, db_eq⟩ := passes.call serves aead key S.db S.seqs
  have matching (row : SessionRow) (mem : row ∈ S.db.sessions) (request' : RegistrationRequest)
      (created : Created ls row.id request') : request'.Matches st row := r.matches mem created
  intro F
  cases outcome with
  | created free =>
    refine .inl ⟨⟨result_eq, _, rfl, ⟨rfl, rfl, rfl, rfl, rfl, rfl⟩, db_eq, ?_⟩, ?_, ?_⟩
    · rw [db_eq]
      exact Table.rows_insert free
    · rintro ⟨row, mem, domain, sessionId | ⟨request', created, nonce⟩⟩
      · exact free ⟨row, mem, .inr (.inl ⟨domain, sessionId⟩)⟩
      · refine free ⟨row, mem, .inr (.inr ⟨domain, ?_⟩)⟩
        rw [(matching row mem request' created).nonceHash, nonce]
        rfl
    · rintro ⟨row, mem, created⟩
      have m := matching row mem request created
      exact free ⟨row, mem, .inr (.inl ⟨m.domain, m.sessionId⟩)⟩
  | @identical row mem domain sessionId same =>
    obtain ⟨request', created⟩ := r.traced.origin row mem
    have m := matching row mem request' created
    obtain rfl := RegistrationRequest.eq_of_hash hmac json (m.registrationHash.symm.trans same.1)
    exact .inr (.inl ⟨⟨result_eq, db_eq⟩, ⟨row, mem, domain, .inl sessionId⟩, row, mem, created⟩)
  | @different row mem domain sessionId differs =>
    refine .inr (.inr ⟨⟨result_eq, db_eq⟩, ⟨row, mem, domain, .inl sessionId⟩, ?_⟩)
    rintro ⟨row', mem', created⟩
    have m := matching row' mem' request created
    obtain rfl : row' = row := Table.eq_of_clash (fun _ _ => SessionRow.Clash.symm) mem' mem
      (.inr (.inl ⟨m.domain.trans domain.symm, m.sessionId.trans sessionId.symm⟩))
    exact differs ⟨m.registrationHash, m.nonceHash, m.qrSignature, m.registrationSignature⟩
  | taken none clashes =>
    obtain ⟨row, mem, id_eq | ⟨domain, sessionId⟩ | ⟨domain, nonceHash⟩⟩ := clashes
    · exact absurd id_eq (Nat.ne_of_lt (r.fresh.rows row mem))
    · exact absurd ⟨domain, sessionId⟩ (none row mem)
    obtain ⟨request', created⟩ := r.traced.origin row mem
    have nonce : request'.nonce = request.nonce :=
      AppState.lookupHash_inj hmac ((matching row mem request' created).nonceHash.symm.trans nonceHash)
    refine .inr (.inr ⟨⟨result_eq, db_eq⟩, ⟨row, mem, domain, .inr ⟨request', created, nonce⟩⟩, ?_⟩)
    rintro ⟨row', mem', created'⟩
    have m := matching row' mem' request created'
    exact none row' mem' ⟨m.domain, m.sessionId⟩

/-- Registration is idempotent and detects conflicts: a session is created exactly if no session has the
session id or the nonce of the request, a request that has created a session is answered as registered, and
every other one is refused. Of the calls of a run that share a session id or a nonce, at most one creates. -/
theorem registration_is_idempotent (hmac : st.crates.HmacCollisionFree) (json : st.crates.JsonCorrect)
    (aead : st.crates.AeadEncrypts) (key : st.atRest.length = 32) (r : Run st ls S) :
    (∀ env request, Env.Serves env → env.Passes st request →
      ((env.call st (.register request) S.db S.seqs).IsCreated st request S.db ↔ ¬ Claims ls S.db request) ∧
      ((env.call st (.register request) S.db S.seqs).IsRepeated request S.db ↔ Repeated ls S.db request) ∧
      (Claims ls S.db request → ¬ Repeated ls S.db request →
        (env.call st (.register request) S.db S.seqs).IsConflict S.db)) ∧
    ls.Pairwise Label.Unrivalled ∧
    ∀ t t' request request' response response' l l', t ≠ t' →
      S.tasks t = some ⟨.register request, some (.ret (.registered (.ok (response, true)))), l⟩ →
      S.tasks t' = some ⟨.register request', some (.ret (.registered (.ok (response', true)))), l'⟩ →
      ¬ request.Rivals request' := by
  refine ⟨fun env request serves passes => ?_, r.unrivalled,
    fun _ _ _ _ _ _ _ _ ne h h' => r.calls_unrivalled ne h h'⟩
  obtain ⟨created, free, new⟩ | ⟨repeated, claimed, old⟩ | ⟨conflict, claimed, new⟩ :=
    r.registration_cases hmac json aead key serves passes
  · refine ⟨iff_of_true created free, iff_of_false (fun h => ?_) new, fun claimed => absurd claimed free⟩
    cases created.1.symm.trans h.1
  · refine ⟨iff_of_false (fun h => ?_) (fun h => h claimed), iff_of_true repeated old, fun _ new => absurd old new⟩
    cases repeated.1.symm.trans h.1
  · refine ⟨iff_of_false (fun h => ?_) (fun h => h claimed), iff_of_false (fun h => ?_) new, fun _ _ => conflict⟩
    · cases conflict.1.symm.trans h.1
    · cases conflict.1.symm.trans h.1

/-- The registration of Alice passes. -/
lemma Sample.alice_passes : (Sample.env Sample.alice.seed Sample.loginTime Sample.alice.site).Passes Sample.relay
    Sample.alice.registration where
  valid := Sample.alice_valid.registration
  unexpired := by decide
  verified := ⟨Sample.alice.metadata, _, _, _, rfl, Sample.parsed_metadata _, Sample.alice_valid.metadata,
    (Sample.qrCanonical_signRegistration _).trans (Sample.qrCanonical_ok _), Sample.verify_siteSign _,
    (Sample.registrationCanonical_signRegistration _).trans (Sample.registrationCanonical_ok _),
    Sample.verify_siteSign _⟩
  representable := ⟨_, rfl⟩

/-- The sessions of her login are hers. -/
lemma Sample.created_alice {id : Nat} {request : RegistrationRequest}
    (h : Created Sample.consentedLabels id request) : request = Sample.alice.registration := by
  obtain ⟨lb, mem, creates⟩ := h
  have of_call {env : Env} {t : Nat} {input : Input} {db : Db} {seqs : Seqs}
      (mem : lb ∈ env.labels Sample.relay t input db seqs) : input = .register request := by
    obtain rfl | ⟨m, _, rfl⟩ := Env.mem_labels mem
    · exact creates.elim
    · cases input with
      | register r => exact congrArg Input.register creates.1
      | inbound event => exact creates.elim
      | tick => exact creates.elim
  obtain mem | mem := List.mem_append.mp mem
  · obtain mem | mem := List.mem_append.mp mem
    · exact (Input.register.inj (of_call mem)).symm
    · nomatch of_call mem
  · nomatch of_call mem

/-- After her login Alice's registration is answered again. -/
theorem registration_is_idempotent_alice : ∃ ls S, Run Sample.relay ls S ∧ S.db.sessions.rows.length = 1 ∧
    ((Sample.env Sample.alice.seed Sample.loginTime Sample.alice.site).call Sample.relay
      (.register Sample.alice.registration) S.db S.seqs).IsRepeated Sample.alice.registration S.db := by
  obtain ⟨S, run, _, hd, _⟩ := Sample.reaches_plain.run
  have one : S.db.sessions.rows.length = 1 := by
    rw [hd]
    decide +kernel
  have serves : (Sample.env Sample.alice.seed Sample.loginTime Sample.alice.site).Serves :=
    ⟨fun _ => ⟨_, rfl⟩, fun _ => rfl, fun _ => rfl⟩
  have encrypts : Crates.stub.AeadEncrypts := fun _ _ _ _ _ _ => rfl
  obtain ⟨row, mem⟩ := List.exists_mem_of_length_pos (one ▸ Nat.one_pos)
  obtain ⟨request, created⟩ := run.run.traced.origin row mem
  obtain rfl := Sample.created_alice created
  have outcomes := (registration_is_idempotent Crates.stub_hmac Crates.stub_json encrypts rfl run.run).1 _ _ serves
    Sample.alice_passes
  exact ⟨_, S, run.run, one, outcomes.2.1.mpr ⟨row, mem, created⟩⟩

end WebLoginRelay
