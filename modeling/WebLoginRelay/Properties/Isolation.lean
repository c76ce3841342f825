import WebLoginRelay.Samples.Runs
import WebLoginRelay.System.Tables

/-!
# Isolation between sites

A Consent and a Revocation name their session by its id and nonce, without the domain, and the lookup
fails when it finds two rows. The same call is run on two databases that differ only in sessions of
other domains: as long as none of these shares the id and the nonce of the session that is named, the
call does not notice them. One that does makes every such call fail.
-/

namespace WebLoginRelay
open Text Txn

variable {st : AppState} {D sessionId : String} {nonceHash : Bytes} {db db' : Db}

/-- The databases differ only in sessions of other domains than `D`. -/
structure SameSite (D : String) (db db' : Db) : Prop where
  sessions : db'.sessions.rows.filter (·.domain == D) = db.sessions.rows.filter (·.domain == D)
  replay : db'.replay = db.replay
  grants : db'.grants = db.grants
  jobs : db'.jobs = db.jobs

/-- A database is the same for a site as itself. -/
lemma SameSite.refl (D : String) (db : Db) : SameSite D db db := ⟨rfl, rfl, rfl, rfl⟩

/-- It does not matter which of two databases comes first. -/
lemma SameSite.symm (h : SameSite D db db') : SameSite D db' db :=
  ⟨h.sessions.symm, h.replay.symm, h.grants.symm, h.jobs.symm⟩

/-- What is the same for a site in two steps is the same. -/
lemma SameSite.trans {db'' : Db} (h : SameSite D db db') (h' : SameSite D db' db'') :
    SameSite D db db'' :=
  ⟨h'.sessions.trans h.sessions, h'.replay.trans h.replay, h'.grants.trans h.grants,
    h'.jobs.trans h.jobs⟩

/-- Both databases have the same sessions of the domain. -/
lemma SameSite.mem (h : SameSite D db db') {row : SessionRow} (hr : row ∈ db.sessions)
    (hd : row.domain = D) : row ∈ db'.sessions := by
  have m : row ∈ db.sessions.rows.filter (·.domain == D) :=
    List.mem_filter.mpr ⟨hr, beq_iff_eq.mpr hd⟩
  rw [← h.sessions] at m
  exact (List.mem_filter.mp m).1

/-- No other domain has a session with this id and nonce. -/
def OnlyHere (D sessionId : String) (nonceHash : Bytes) (db : Db) : Prop :=
  ∀ row ∈ db.sessions, row.sessionId = sessionId → row.nonceHash = nonceHash → row.domain = D

/-- The sequences, as far as a call on an event draws from them. -/
structure SameSeqs (seqs seqs' : Seqs) : Prop where
  grants : seqs'.grants = seqs.grants
  jobs : seqs'.jobs = seqs.jobs

/-! ## Statements -/

/-- A lookup by id and nonce sees the sessions of the domain only. -/
lemma SameSite.select (h : SameSite D db db') (only : OnlyHere D sessionId nonceHash db)
    (only' : OnlyHere D sessionId nonceHash db') :
    db'.sessions.rows.filter (SessionFilter.sessionAndNonce sessionId nonceHash).accepts =
      db.sessions.rows.filter (SessionFilter.sessionAndNonce sessionId nonceHash).accepts := by
  have here {db : Db} (only : OnlyHere D sessionId nonceHash db) :
      db.sessions.rows.filter (SessionFilter.sessionAndNonce sessionId nonceHash).accepts =
        (db.sessions.rows.filter (·.domain == D)).filter
          (SessionFilter.sessionAndNonce sessionId nonceHash).accepts := by
    rw [List.filter_filter]
    refine List.filter_congr fun row hr => ?_
    cases acc : (SessionFilter.sessionAndNonce sessionId nonceHash).accepts row with
    | false => rfl
    | true =>
      obtain ⟨hs, hn⟩ := SessionFilter.accepts_sessionAndNonce.mp acc
      simp [only row hr hs hn]
  rw [here only, here only', h.sessions]

/-- An update finds a session of the domain in both databases. -/
lemma SameSite.find (h : SameSite D db db') {id : Nat} (mine : ∃ r ∈ db.sessions, r.id = id ∧ r.domain = D)
    (version : Nat) :
    db'.sessions.rows.find? (fun r => r.id == id && r.version == version) =
      db.sessions.rows.find? (fun r => r.id == id && r.version == version) := by
  obtain ⟨s, hs, hi, hd⟩ := mine
  have here {db : Db} (hs : s ∈ db.sessions) :
      db.sessions.rows.find? (fun r => r.id == id && r.version == version) =
        (db.sessions.rows.filter (·.domain == D)).find?
          (fun r => r.id == id && r.version == version) := by
    rw [List.find?_filter]
    refine List.find?_congr fun row hr => ?_
    cases e : row.id == id with
    | false => simp
    | true =>
      obtain rfl := session_eq_of_id hr hs ((beq_iff_eq.mp e).trans hi.symm)
      simp [hd, beq_eq_decide]
  rw [here hs, here (h.mem hs hd), h.sessions]

/-- The statements a call on a Consent or a Revocation makes, on what it has read. -/
def Query.Mine (D sessionId : String) (nonceHash : Bytes) (view : Db) : Query → Prop
  | .insertSession _ => False
  | .selectSessions filter => filter = .sessionAndNonce sessionId nonceHash
  | .casUpdate id _ _ => ∃ r ∈ view.sessions, r.id = id ∧ r.domain = D
  | _ => True

/-- The entries such a statement records. -/
def Entry.Mine (D : String) : Entry → Prop
  | .sessionInsert _ => False
  | .sessionRead row => row.domain = D
  | _ => True

/-- Such a statement answers the same on both databases. -/
lemma SameSite.run {q : Query} {seqs seqs' : Seqs} (now : DateTime) (h : SameSite D db db')
    (only : OnlyHere D sessionId nonceHash db) (only' : OnlyHere D sessionId nonceHash db')
    (hs : SameSeqs seqs seqs') (mine : q.Mine D sessionId nonceHash db) :
    (q.run db' seqs' now).resp = (q.run db seqs now).resp ∧
    (q.run db' seqs' now).log = (q.run db seqs now).log ∧
    SameSeqs (q.run db seqs now).seqs (q.run db' seqs' now).seqs ∧
    ∀ e ∈ (q.run db seqs now).log, e.Mine D := by
  cases q with
  | insertSession new => cases mine
  | selectSessions filter =>
    cases mine
    simp only [Query.run, h.select only only']
    refine ⟨trivial, trivial, hs, fun e he => ?_⟩
    obtain ⟨row, hr, rfl⟩ := List.mem_map.mp he
    obtain ⟨mem, acc⟩ := List.mem_filter.mp hr
    obtain ⟨hs, hn⟩ := SessionFilter.accepts_sessionAndNonce.mp acc
    exact only row mem hs hn
  | casUpdate id version set =>
    simp only [Query.run, h.find mine version]
    split
    · exact ⟨rfl, rfl, hs, List.forall_mem_nil _⟩
    · split
      · refine ⟨rfl, rfl, hs, fun e he => ?_⟩
        cases List.mem_singleton.mp he
        trivial
      · exact ⟨rfl, rfl, hs, List.forall_mem_nil _⟩
  | insertReplay key expiresAt =>
    simp only [Query.run, h.replay]
    split
    · exact ⟨rfl, rfl, hs, List.forall_mem_nil _⟩
    · refine ⟨rfl, rfl, hs, fun e he => ?_⟩
      cases List.mem_singleton.mp he
      trivial
  | upsertGrant new =>
    have next : SameSeqs { seqs with grants := seqs.grants + 1 }
        { seqs' with grants := seqs'.grants + 1 } := ⟨congrArg (· + 1) hs.grants, hs.jobs⟩
    simp only [Query.run, h.grants, hs.grants] at next ⊢
    split
    · refine ⟨rfl, rfl, next, fun e he => ?_⟩
      cases List.mem_singleton.mp he
      trivial
    · split
      · exact ⟨rfl, rfl, next, List.forall_mem_nil _⟩
      · refine ⟨rfl, rfl, next, fun e he => ?_⟩
        cases List.mem_singleton.mp he
        trivial
  | selectGrants domain subjectHash =>
    simp only [Query.run, h.grants]
    refine ⟨trivial, trivial, hs, fun e he => ?_⟩
    obtain ⟨g, _, rfl⟩ := List.mem_map.mp he
    trivial
  | markRevoked id =>
    simp only [Query.run, h.grants]
    split
    · exact ⟨rfl, rfl, hs, List.forall_mem_nil _⟩
    · refine ⟨rfl, rfl, hs, fun e he => ?_⟩
      cases List.mem_singleton.mp he
      trivial
  | enqueue new =>
    have next : SameSeqs { seqs with jobs := seqs.jobs + 1 }
        { seqs' with jobs := seqs'.jobs + 1 } := ⟨hs.grants, congrArg (· + 1) hs.jobs⟩
    simp only [Query.run, h.jobs, hs.jobs] at next ⊢
    split
    · exact ⟨rfl, rfl, next, List.forall_mem_nil _⟩
    · split
      · exact ⟨rfl, rfl, next, List.forall_mem_nil _⟩
      · refine ⟨rfl, rfl, next, fun e he => ?_⟩
        cases List.mem_singleton.mp he
        trivial

/-! ## Journals -/

/-- An entry does the same to both databases. -/
lemma SameSite.apply {e : Entry} (h : SameSite D db db') (mine : e.Mine D) :
    SameSite D (e.apply db) (e.apply db') := by
  cases e with
  | sessionInsert row => nomatch mine
  | sessionUpdate row set =>
    have domain : (fun r : SessionRow => r.domain == D) ∘ set.at row.id = (·.domain == D) :=
      funext fun r => by simp
    refine ⟨?_, h.replay, h.grants, h.jobs⟩
    simp only [Entry.apply, Db.updateSession, Table.rows_update, List.filter_map, domain, h.sessions]
  | sessionRead row => exact h
  | replayInsert row => exact ⟨h.sessions, congrArg (·.insert row) h.replay, h.grants, h.jobs⟩
  | grantRead row => exact h
  | grantInsert row => exact ⟨h.sessions, h.replay, congrArg (·.insert row) h.grants, h.jobs⟩
  | grantUpdate row set =>
    exact ⟨h.sessions, h.replay, by simp only [Entry.apply, Db.updateGrant, h.grants], h.jobs⟩
  | jobInsert row => exact ⟨h.sessions, h.replay, h.grants, congrArg (·.insert row) h.jobs⟩
  | jobUpdate row set =>
    exact ⟨h.sessions, h.replay, h.grants, by simp only [Entry.apply, Db.updateJob, h.jobs]⟩

/-- The keys and domains of the sessions are the same after an entry. -/
lemma Entry.Mine.keys {e : Entry} (mine : e.Mine D) {row : SessionRow} (h : row ∈ (e.apply db).sessions) :
    ∃ r ∈ db.sessions, r.id = row.id ∧ r.domain = row.domain ∧ r.sessionId = row.sessionId ∧
      r.nonceHash = row.nonceHash := by
  cases e with
  | sessionInsert row => nomatch mine
  | sessionUpdate s set =>
    obtain ⟨r, hr, rfl⟩ := (Db.mem_updateSession ..).mp h
    exact ⟨r, hr, by simp, by simp, by simp, by simp⟩
  | sessionRead _ => exact ⟨row, h, rfl, rfl, rfl, rfl⟩
  | replayInsert _ => exact ⟨row, h, rfl, rfl, rfl, rfl⟩
  | grantRead _ => exact ⟨row, h, rfl, rfl, rfl, rfl⟩
  | grantInsert _ => exact ⟨row, h, rfl, rfl, rfl, rfl⟩
  | grantUpdate _ _ => exact ⟨row, h, rfl, rfl, rfl, rfl⟩
  | jobInsert _ => exact ⟨row, h, rfl, rfl, rfl, rfl⟩
  | jobUpdate _ _ => exact ⟨row, h, rfl, rfl, rfl, rfl⟩

/-- An entry of the site gives the id and the nonce to no other site. -/
lemma OnlyHere.apply {e : Entry} (only : OnlyHere D sessionId nonceHash db) (mine : e.Mine D) :
    OnlyHere D sessionId nonceHash (e.apply db) := by
  intro row hr hs hn
  obtain ⟨r, hr, _, hd, hs', hn'⟩ := mine.keys hr
  exact hd.symm.trans (only r hr (hs'.trans hs) (hn'.trans hn))

/-- Neither does a journal of the site. -/
lemma OnlyHere.replay {es : List Entry} (only : OnlyHere D sessionId nonceHash db)
    (mine : ∀ e ∈ es, e.Mine D) : OnlyHere D sessionId nonceHash (journal.replay db es) := by
  induction es generalizing db with
  | nil => exact only
  | cons e es ih => exact ih (only.apply (mine e (by simp))) fun f hf => mine f (by simp [hf])

/-- A journal of the site does the same to databases that are the same for it. -/
lemma SameSite.replay_log {es : List Entry} (h : SameSite D db db') (mine : ∀ e ∈ es, e.Mine D) :
    SameSite D (journal.replay db es) (journal.replay db' es) := by
  induction es generalizing db db' with
  | nil => exact h
  | cons e es ih => exact ih (h.apply (mine e (by simp))) fun f hf => mine f (by simp [hf])

/-- A session that was read is there, with the same id and domain. -/
lemma read_stays {es : List Entry} {row : SessionRow} (vl : journal.Valid db es)
    (read : .sessionRead row ∈ es) :
    ∃ r ∈ (journal.replay db es).sessions, r.id = row.id ∧ r.domain = row.domain := by
  have keep {e : Entry} {db : Db} (h : ∃ r ∈ db.sessions, r.id = row.id ∧ r.domain = row.domain) :
      ∃ r ∈ (e.apply db).sessions, r.id = row.id ∧ r.domain = row.domain := by
    obtain ⟨r, hr, hi, hd⟩ := h
    cases e with
    | sessionUpdate s set =>
      exact ⟨set.at s.id r, (Db.mem_updateSession ..).mpr ⟨r, hr, rfl⟩, by simp [hi], by simp [hd]⟩
    | sessionInsert s => exact ⟨r, Table.mem_insert.mpr (.inl hr), hi, hd⟩
    | sessionRead _ => exact ⟨r, hr, hi, hd⟩
    | replayInsert _ => exact ⟨r, hr, hi, hd⟩
    | grantRead _ => exact ⟨r, hr, hi, hd⟩
    | grantInsert _ => exact ⟨r, hr, hi, hd⟩
    | grantUpdate _ _ => exact ⟨r, hr, hi, hd⟩
    | jobInsert _ => exact ⟨r, hr, hi, hd⟩
    | jobUpdate _ _ => exact ⟨r, hr, hi, hd⟩
  have keepAll (es : List Entry) {db : Db}
      (h : ∃ r ∈ db.sessions, r.id = row.id ∧ r.domain = row.domain) :
      ∃ r ∈ (journal.replay db es).sessions, r.id = row.id ∧ r.domain = row.domain := by
    induction es generalizing db with
    | nil => exact h
    | cons e es ih => exact ih (keep h)
  induction es generalizing db with
  | nil => nomatch read
  | cons e es ih =>
    obtain rfl | read := List.mem_cons.mp read
    · exact keepAll es ⟨row, vl.1, rfl, rfl⟩
    · exact ih vl.2 read

/-! ## Calls -/

/-- The two databases during a call, with the call's journal. -/
structure Twins (D sessionId : String) (nonceHash : Bytes) (db db' : Db) (seqs seqs' : Seqs)
    (l : Local) : Prop where
  site : SameSite D db db'
  seqs : SameSeqs seqs seqs'
  only : OnlyHere D sessionId nonceHash db
  only' : OnlyHere D sessionId nonceHash db'
  valid : journal.Valid db l.log
  mine : ∀ e ∈ l.log, e.Mine D

namespace Twins
variable {seqs seqs' : Seqs} {l : Local}

/-- An operation that neither writes nor records anything, and keeps or ends the transaction. -/
lemma of_log (h : Twins D sessionId nonceHash db db' seqs seqs' l) {l' : Local}
    (e : l'.log = l.log ∨ l'.log = []) : Twins D sessionId nonceHash db db' seqs seqs' l' := by
  obtain e | e := e
  · exact ⟨h.site, h.seqs, h.only, h.only', e ▸ h.valid, e ▸ h.mine⟩
  · refine ⟨h.site, h.seqs, h.only, h.only', ?_, ?_⟩
    · rw [e]
      trivial
    · rw [e]
      exact fun f hf => nomatch hf

/-- A commit does the same to both databases. -/
lemma commit (h : Twins D sessionId nonceHash db db' seqs seqs' l) {l' : Local} (e : l'.log = []) :
    Twins D sessionId nonceHash (journal.replay db l.log) (journal.replay db' l.log) seqs seqs' l' where
  site := h.site.replay_log h.mine
  seqs := h.seqs
  only := h.only.replay h.mine
  only' := h.only'.replay h.mine
  valid := by rw [e]; trivial
  mine := by rw [e]; exact fun f hf => nomatch hf

/-- A statement records the same for both databases. -/
lemma exec (h : Twins D sessionId nonceHash db db' seqs seqs' l) {q : Query} {out : Outcome q.Resp}
    {seqs₁ : Seqs} (vl : journal.Valid (journal.replay db l.log) out.log)
    (mine : ∀ e ∈ out.log, e.Mine D) (hs : SameSeqs out.seqs seqs₁) :
    Twins D sessionId nonceHash db db' out.seqs seqs₁ (l.after ⟨.exec q, out.resp, out.log⟩) := by
  have next : Twins D sessionId nonceHash db db' out.seqs seqs₁ l := { h with seqs := hs }
  obtain ⟨resp, log, seqs₂⟩ := out
  cases resp with
  | error err => exact next.of_log (.inr rfl)
  | ok r =>
    refine { next with valid := ?_, mine := fun e he => ?_ }
    · exact (Journal.valid_append journal).mpr ⟨h.valid, vl⟩
    · exact (List.mem_append.mp he).elim (h.mine e) (mine e)

end Twins

/-- The statements of a call on an event that looks for a session by its id and nonce. -/
lemma Permits.mine {event : InboundEvent} {l : Local} {q : Query} {r es}
    (lookup : (event.message? st).bind (·.lookup? st) = some (.sessionAndNonce sessionId nonceHash))
    (ok : Permits st (.inbound event) l ⟨.exec q, r, es⟩) (vl : journal.Valid db l.log)
    (mine : ∀ e ∈ l.log, e.Mine D) : q.Mine D sessionId nonceHash (journal.replay db l.log) := by
  cases q with
  | insertSession new =>
    obtain ⟨request, e⟩ := ok
    nomatch e
  | selectSessions filter => exact (Option.some.inj (lookup.symm.trans (ok event rfl))).symm
  | casUpdate id version set =>
    obtain ⟨row, read, rfl⟩ := ok
    obtain ⟨r, hr, hi, hd⟩ := read_stays vl read
    exact ⟨r, hr, hi, hd.trans (mine _ read)⟩
  | insertReplay key expiresAt => trivial
  | upsertGrant new => trivial
  | selectGrants domain subjectHash => trivial
  | markRevoked id => trivial
  | enqueue new => trivial

/-- One operation of a call gets the same answer from both databases. -/
lemma Twins.step {event : InboundEvent} {l : Local} {seqs seqs' : Seqs}
    (lookup : (event.message? st).bind (·.lookup? st) = some (.sessionAndNonce sessionId nonceHash))
    (h : Twins D sessionId nonceHash db db' seqs seqs' l) (env : Env) (o : Op)
    (ok : Permits st (.inbound event) l (env.answer db seqs l o).act) :
    (env.answer db' seqs' l o).act = (env.answer db seqs l o).act ∧
    (env.answer db' seqs' l o).resp = (env.answer db seqs l o).resp ∧
    Twins D sessionId nonceHash (journal.replay db (env.answer db seqs l o).act.writes)
      (journal.replay db' (env.answer db seqs l o).act.writes) (env.answer db seqs l o).seqs
      (env.answer db' seqs' l o).seqs (l.after (env.answer db seqs l o).act) := by
  cases o with
  | now => exact ⟨rfl, rfl, h.of_log (.inl rfl)⟩
  | fillBytes n => exact ⟨rfl, rfl, h.of_log (.inl rfl)⟩
  | request r => exact ⟨rfl, rfl, h.of_log (.inl rfl)⟩
  | sendNotice roomId body => exact ⟨rfl, rfl, h.of_log (.inl rfl)⟩
  | begin =>
    refine ⟨rfl, rfl, h.of_log ?_⟩
    cases e : env.begun l.past.length with
    | ok now => exact .inr (by simp [Env.answer, Answer.act, e, Local.after, Local.txAfter])
    | error err => exact .inl (by simp [Env.answer, Answer.act, e, Local.after, Local.txAfter])
  | exec q =>
    simp only [Env.answer] at ok ⊢
    split at ok
    · rename_i now _ _
      have view := h.site.replay_log h.mine
      obtain ⟨resp, log, hs, mine⟩ := view.run now (h.only.replay h.mine)
        (h.only'.replay h.mine) h.seqs (ok.mine lookup h.valid h.mine)
      have vl := q.run_valid (journal.replay db l.log) seqs now
      refine ⟨?_, resp, h.exec vl mine hs⟩
      simp only [Answer.act, resp, log]
    · exact ⟨rfl, rfl, h.of_log (.inr rfl)⟩
  | commit =>
    simp only [Env.answer]
    split
    · exact ⟨rfl, rfl, h.commit rfl⟩
    · exact ⟨rfl, rfl, h.of_log (.inr rfl)⟩
  | rollback => exact ⟨rfl, rfl, h.of_log (.inr rfl)⟩
  | drop => exact ⟨rfl, rfl, h.of_log (.inr rfl)⟩
  | auto a => cases ok.of_auto

/-- A call that stays within what is permitted ends the same on both databases. -/
lemma Twins.run {event : InboundEvent} {l : Local} {seqs seqs' : Seqs} {p : Prog Op Op.Resp Result}
    (lookup : (event.message? st).bind (·.lookup? st) = some (.sessionAndNonce sessionId nonceHash))
    (env : Env) (h : Twins D sessionId nonceHash db db' seqs seqs' l)
    (w : Prog.wp Local.Poss Local.after (Permits st (.inbound event)) p (fun _ _ => True) l) :
    (env.run p db' seqs' l).result = (env.run p db seqs l).result ∧
    SameSite D (env.run p db seqs l).db (env.run p db' seqs' l).db := by
  induction p generalizing db db' seqs seqs' l with
  | ret a => exact ⟨rfl, h.site⟩
  | req o k ih =>
    have poss : l.Poss o (env.answer db seqs l o).resp (env.answer db seqs l o).act :=
      ⟨_, rfl, db, seqs, _, h.valid, env.answer_step db seqs l o⟩
    obtain ⟨ok, rest⟩ := w _ _ poss
    obtain ⟨act, resp, next⟩ := h.step lookup env o ok
    simp only [Env.run, act, resp]
    exact ih _ next rest

/-! ## Two rows -/

/-- A lookup of a session. -/
abbrev Relay.selectSession (filter : SessionFilter) : Relay (Option SessionRow) := do
  liftResult (queryOpt (← exec (.selectSessions filter)))

/-- The call fails and leaves the database as it was. -/
def Fails {α : Type} (env : Env) (x : Relay α) (db : Db) (seqs : Seqs) (l : Local) : Prop :=
  (∃ e, (env.run x.run db seqs l).result = .error e) ∧ (env.run x.run db seqs l).db = db

namespace Fails
variable {env : Env} {α β : Type} {seqs : Seqs} {l : Local}

/-- The run of a sequence of which the first part fails or goes on. -/
lemma bind {x : Relay α} {f : α → Relay β} (same : (env.run x.run db seqs l).db = db)
    (h : ∀ a, (env.run x.run db seqs l).result = .ok a →
      Fails env (f a) db (env.run x.run db seqs l).seqs (env.run x.run db seqs l).loc) :
    Fails env (x >>= f) db seqs l := by
  have e : (x >>= f).run = x.run >>= ExceptT.bindCont f := rfl
  rw [Fails, e, Env.run_bind, same]
  cases r : (env.run x.run db seqs l).result with
  | ok a => exact h a r
  | error err => exact ⟨⟨err, rfl⟩, rfl⟩

/-- A call that fails whatever the clock says fails. -/
lemma nowMs_bind {f : Int64 → Relay β} (h : ∀ t l', l'.log = l.log → Fails env (f t) db seqs l') :
    Fails env (Relay.nowMs >>= f) db seqs l :=
  bind rfl fun t _ => h t _ rfl

/-- A call that fails whatever a result is fails. -/
lemma lift_bind {r : Except RelayError α} {f : α → Relay β}
    (h : ∀ a, Fails env (f a) db seqs l) : Fails env (liftM r >>= f) db seqs l :=
  bind rfl fun a _ => h a

/-- A transaction fails with its body. -/
lemma inTx {body : Relay α}
    (h : ∀ t l', l'.tx = some t → l'.log = [] → Fails env body db seqs l') :
    Fails env (Relay.inTx body) db seqs l := by
  have e : (Relay.inTx body).run = Prog.req Op.begin fun begun => match begun with
    | .error _ => pure (fail .internalError)
    | .ok _ => body.run >>= fun r => Prog.ask Op.drop >>= fun _ => pure r := rfl
  rw [Fails, e]
  simp only [Env.run, Env.answer]
  cases begun : env.begun l.past.length with
  | error err => exact ⟨⟨_, rfl⟩, rfl⟩
  | ok t =>
    obtain ⟨⟨err, result⟩, same⟩ :=
      h t (l.after ⟨.begin, (Except.ok t : Except DbError DateTime), []⟩) rfl rfl
    simp only [Env.run_bind]
    exact ⟨⟨err, result⟩, same⟩

/-- A lookup that finds two rows fails. -/
lemma lookup {filter : SessionFilter} {f : Option SessionRow → Relay β} {t : DateTime}
    {r r' : SessionRow} (tx : l.tx = some t) (log : l.log = []) (hr : r ∈ db.sessions)
    (hr' : r' ∈ db.sessions) (acc : filter.accepts r) (acc' : filter.accepts r') (ne : r ≠ r') :
    Fails env (Relay.selectSession filter >>= f) db seqs l := by
  have two : ∃ a b rest, db.sessions.rows.filter filter.accepts = a :: b :: rest := by
    have m : r ∈ db.sessions.rows.filter filter.accepts := List.mem_filter.mpr ⟨hr, acc⟩
    have m' : r' ∈ db.sessions.rows.filter filter.accepts := List.mem_filter.mpr ⟨hr', acc'⟩
    generalize db.sessions.rows.filter filter.accepts = rows at m m' ⊢
    obtain _ | ⟨a, _ | ⟨b, rest⟩⟩ := rows
    · cases m
    · exact absurd ((List.mem_singleton.mp m).trans (List.mem_singleton.mp m').symm) ne
    · exact ⟨a, b, rest, rfl⟩
  obtain ⟨a, b, rest, rows⟩ := two
  have failed : (env.run (Relay.selectSession filter).run db seqs l).result = fail .internalError ∧
      (env.run (Relay.selectSession filter).run db seqs l).db = db := by
    have e : (Relay.selectSession filter).run = Prog.req (Op.exec (.selectSessions filter))
        fun resp => Prog.ret (Relay.orInternal resp >>= queryOpt) :=
      congrArg (Prog.req _) (funext fun resp => by cases resp <;> rfl)
    rw [e]
    simp only [Env.run, Env.answer, tx, log, Journal.replay_nil]
    cases env.fault l.past.length with
    | true => exact ⟨rfl, rfl⟩
    | false =>
      simp only [Query.run, rows]
      exact ⟨rfl, rfl⟩
  refine bind failed.2 fun a e => ?_
  rw [failed.1] at e
  cases e

end Fails

/-- A Consent or a Revocation that names two rows fails. -/
lemma handleInbound_fails {event : InboundEvent} {r r' : SessionRow} (env : Env) (seqs : Seqs)
    (lookup : (event.message? st).bind (·.lookup? st) = some (.sessionAndNonce sessionId nonceHash))
    (hr : r ∈ db.sessions) (hr' : r' ∈ db.sessions) (ne : r ≠ r')
    (acc : (SessionFilter.sessionAndNonce sessionId nonceHash).accepts r)
    (acc' : (SessionFilter.sessionAndNonce sessionId nonceHash).accepts r') :
    Fails env (handleInbound st event) db seqs {} := by
  unfold handleInbound
  cases msg : event.message? st with
  | none =>
    rw [msg] at lookup
    nomatch lookup
  | some m =>
    rw [msg] at lookup
    cases m with
    | request => nomatch lookup
    | challenge => nomatch lookup
    | result => nomatch lookup
    | consent =>
      cases lookup
      refine Fails.nowMs_bind fun now l log => ?_
      refine Fails.lift_bind fun signed => Fails.lift_bind fun _ => ?_
      exact Fails.inTx fun t l tx log => Fails.lookup tx log hr hr' acc acc' ne
    | revocation =>
      cases lookup
      exact Fails.inTx fun t l tx log => Fails.lookup tx log hr hr' acc acc' ne

/-- A Consent or a Revocation on session `S` of domain `D` does the same whether or not other domains have
registered sessions, as long as none of these has the id and the nonce of `S`. If one has them, the call
fails and changes nothing; so a call that has an effect on the site without the other registrations has
the same effect with them exactly when none of them shares the id and the nonce, and a call that succeeds
without them has the same outcome exactly then. -/
theorem sites_isolated_unless_shared {event : InboundEvent} {seqs seqs' : Seqs} {S : SessionRow}
    (env : Env)
    (lookup : (event.message? st).bind (·.lookup? st) = some (.sessionAndNonce sessionId nonceHash))
    (hS : S ∈ db.sessions) (domain : S.domain = D) (hs : S.sessionId = sessionId)
    (hn : S.nonceHash = nonceHash) (alone : OnlyHere D sessionId nonceHash db)
    (same : SameSite D db db') (hq : SameSeqs seqs seqs') :
    (OnlyHere D sessionId nonceHash db' →
      (env.call st (.inbound event) db' seqs').result = (env.call st (.inbound event) db seqs).result ∧
      SameSite D (env.call st (.inbound event) db seqs).db (env.call st (.inbound event) db' seqs').db) ∧
    (¬ OnlyHere D sessionId nonceHash db' →
      (∃ e, (env.call st (.inbound event) db' seqs').result = .handled (.error e)) ∧
      (env.call st (.inbound event) db' seqs').db = db') ∧
    (¬ SameSite D db (env.call st (.inbound event) db seqs).db →
      (SameSite D (env.call st (.inbound event) db seqs).db
        (env.call st (.inbound event) db' seqs').db ↔ OnlyHere D sessionId nonceHash db')) ∧
    (∀ result, (env.call st (.inbound event) db seqs).result = .handled (.ok result) →
      ((env.call st (.inbound event) db' seqs').result = (env.call st (.inbound event) db seqs).result ∧
        SameSite D (env.call st (.inbound event) db seqs).db (env.call st (.inbound event) db' seqs').db ↔
        OnlyHere D sessionId nonceHash db')) := by
  have shared (not : ¬ OnlyHere D sessionId nonceHash db') :
      (∃ e, (env.call st (.inbound event) db' seqs').result = .handled (.error e)) ∧
      (env.call st (.inbound event) db' seqs').db = db' := by
    simp only [OnlyHere, not_forall] at not
    obtain ⟨r, hr, rs, rn, rd⟩ := not
    have ne : S ≠ r := fun e => rd (e ▸ domain)
    have acc {row : SessionRow} (hs : row.sessionId = sessionId) (hn : row.nonceHash = nonceHash) :
        (SessionFilter.sessionAndNonce sessionId nonceHash).accepts row := by
      simp [SessionFilter.accepts, hs, hn]
    obtain ⟨⟨e, result⟩, unchanged⟩ := handleInbound_fails env seqs' lookup
      (same.mem hS domain) hr ne (acc hs hn) (acc rs rn)
    have call : env.call st (.inbound event) db' seqs' =
        env.run (Result.handled <$> (handleInbound st event).run) db' seqs' {} := rfl
    rw [call, map_eq_pure_bind, Env.run_bind]
    exact ⟨⟨e, congrArg Result.handled result⟩, unchanged⟩
  have isolated (only : OnlyHere D sessionId nonceHash db') :
      (env.call st (.inbound event) db' seqs').result = (env.call st (.inbound event) db seqs).result ∧
      SameSite D (env.call st (.inbound event) db seqs).db
        (env.call st (.inbound event) db' seqs').db := by
    refine Twins.run lookup env ⟨same, hq, alone, only, trivial, List.forall_mem_nil _⟩ ?_
    exact wp_prog st (.inbound event)
  refine ⟨isolated, shared, fun effect => ⟨fun same' => ?_, fun only => (isolated only).2⟩,
    fun result ok => ⟨fun same' => ?_, isolated⟩⟩
  · by_contra not
    rw [(shared not).2] at same'
    exact effect (same.trans same'.symm)
  · by_contra not
    obtain ⟨e, failed⟩ := (shared not).1
    cases failed.symm.trans (same'.1.trans ok)

/-- The relay looks up the session of Alice's Consent by its id and nonce. -/
lemma alice_lookup : ((Sample.alice.consent "$consent" true).message? Sample.relay).bind
    (·.lookup? Sample.relay) =
      some (.sessionAndNonce Sample.alice.sessionId (Sample.relay.lookupHash Sample.alice.nonce)) := by
  rw [Sample.alice_valid.consent]
  rfl

/-- The row of Alice's session. -/
lemma alice_row : ∃ row ∈ Sample.requested.db.sessions.rows, row.domain = "a.io" ∧
    row.sessionId = Sample.alice.sessionId ∧
    row.nonceHash = Sample.relay.lookupHash Sample.alice.nonce := by
  decide +kernel

/-- A registration at another site, after Alice's Request. -/
structure Elsewhere (L : Sample.Login) where
  final : Env.Final Result
  eq : L.registered Sample.requested.db Sample.requested.seqs = final
  closed : final.loc.log = []
  sessions : final.db.sessions.rows.filter (·.domain == "a.io") =
    Sample.requested.db.sessions.rows.filter (·.domain == "a.io")
  replay : final.db.replay.rows = Sample.requested.db.replay.rows
  grants : final.db.grants.rows = Sample.requested.db.grants.rows
  jobs : final.db.jobs.rows = Sample.requested.db.jobs.rows
  seqs : SameSeqs Sample.requested.seqs final.seqs

/-- It makes no difference to the site of Alice. -/
lemma Elsewhere.sameSite {L : Sample.Login} (c : Elsewhere L) :
    SameSite "a.io" Sample.requested.db c.final.db :=
  ⟨c.sessions, Table.ext_rows c.replay, Table.ext_rows c.grants, Table.ext_rows c.jobs⟩

/-- A login of Bob at another site. -/
def Sample.elsewhere : Sample.Login := ⟨"b.io", "session-of-bob-2", "nonce-of-bob-002", "@b:h", 40⟩

/-- A session of Bob. -/
def bobElsewhere : Elsewhere Sample.elsewhere where
  final := _
  eq := rfl
  closed := by decide +kernel
  sessions := by decide +kernel
  replay := by decide +kernel
  grants := by decide +kernel
  jobs := by decide +kernel
  seqs := ⟨by decide +kernel, by decide +kernel⟩

/-- A session of Bob at another site makes no difference to Alice's Consent. -/
theorem sites_isolated_alice : ∃ db' seqs', SameSite "a.io" Sample.requested.db db' ∧
    db'.sessions.rows.length = 2 ∧
    ((Sample.env 12 Sample.loginTime Sample.alice.site).call Sample.relay
      (.inbound (Sample.alice.consent "$consent" true)) db' seqs').result =
    ((Sample.env 12 Sample.loginTime Sample.alice.site).call Sample.relay
      (.inbound (Sample.alice.consent "$consent" true)) Sample.requested.db Sample.requested.seqs).result
    := by
  have only : (∀ row ∈ Sample.requested.db.sessions.rows, row.sessionId = Sample.alice.sessionId →
        row.nonceHash = Sample.relay.lookupHash Sample.alice.nonce → row.domain = "a.io") ∧
      (∀ row ∈ bobElsewhere.final.db.sessions.rows, row.sessionId = Sample.alice.sessionId →
        row.nonceHash = Sample.relay.lookupHash Sample.alice.nonce → row.domain = "a.io") ∧
      bobElsewhere.final.db.sessions.rows.length = 2 := by
    decide +kernel
  obtain ⟨only, only', count⟩ := only
  obtain ⟨row, mem, hd, hs, hn⟩ := alice_row
  have isolated := (sites_isolated_unless_shared (Sample.env 12 Sample.loginTime Sample.alice.site)
    alice_lookup mem hd hs hn only bobElsewhere.sameSite bobElsewhere.seqs).1 only'
  exact ⟨_, _, bobElsewhere.sameSite, count, isolated.1⟩

/-- A call on an event that succeeds. -/
def Result.isOk : Result → Bool
  | .handled (.ok _) => true
  | _ => false

namespace Sample

/-- A session of another site with the id and the nonce of Alice's. -/
def twin : Login := ⟨"b.io", alice.sessionId, alice.nonce, "@b:h", 50⟩

/-- The second login is valid. -/
lemma twin_valid : twin.Valid where
  domain := by decide +kernel
  sessionId := alice_valid.sessionId
  nonce := alice_valid.nonce
  user := by decide
  room := by decide +kernel

end Sample

/-- A session with the id and the nonce of Alice's. -/
def twinElsewhere : Elsewhere Sample.twin where
  final := _
  eq := rfl
  closed := by decide +kernel
  sessions := by decide +kernel
  replay := by decide +kernel
  grants := by decide +kernel
  jobs := by decide +kernel
  seqs := ⟨by decide +kernel, by decide +kernel⟩

/-- Once another site has registered a session with the same id and nonce, Alice's Consent fails. -/
theorem shared_session_breaks_consent : ¬ ∀ (env : Env) event ls S ls' S' D sessionId nonceHash row,
    Run Sample.relay ls S → Run Sample.relay ls' S' →
    (event.message? Sample.relay).bind (·.lookup? Sample.relay) =
      some (.sessionAndNonce sessionId nonceHash) →
    row ∈ S.db.sessions → row.domain = D → row.sessionId = sessionId → row.nonceHash = nonceHash →
    SameSite D S.db S'.db → SameSeqs S.seqs S'.seqs →
    (env.call Sample.relay (.inbound event) S'.db S'.seqs).result =
      (env.call Sample.relay (.inbound event) S.db S.seqs).result := by
  intro claim
  obtain ⟨X, hX⟩ : ∃ X,
    Sample.alice.consented twinElsewhere.final.db twinElsewhere.final.seqs 12 "$consent" true = X := ⟨_, rfl⟩
  have results : Sample.consented.result.isOk = true ∧ X.result.isOk = false := by
    subst hX
    decide +kernel
  obtain ⟨row, mem, hd, hs, hn⟩ := alice_row
  have r := Sample.reaches_requested (C := fun _ _ => True) (fun _ _ _ => trivial)
    (fun _ _ _ _ _ => trivial) fun _ _ _ _ => trivial
  have r' := Sample.twin_valid.registers r twinElsewhere.eq twinElsewhere.closed (fun _ => trivial)
    fun _ _ _ => trivial
  obtain ⟨S, run, _, eS, eS'⟩ := r.run
  obtain ⟨S', run', _, eF, eF'⟩ := r'.run
  have same := claim (Sample.env 12 Sample.loginTime Sample.alice.site) _ _ S _ S' "a.io" _ _ row
    run.run run'.run alice_lookup (by rwa [eS]) hd hs hn
    (by rw [eS, eF]; exact twinElsewhere.sameSite) (by rw [eS', eF']; exact twinElsewhere.seqs)
  rw [eS, eS', eF, eF', Sample.alice_valid.call_consent hX,
    Sample.alice_valid.call_consent (F := Sample.consented) rfl] at same
  rw [← same, results.2] at results
  exact absurd results.1 (by decide)

end WebLoginRelay
