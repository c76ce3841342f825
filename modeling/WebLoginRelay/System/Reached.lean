import WebLoginRelay.System.Tables

/-!
# How calls end

`System.Permits` follows a call as long as it succeeds, on any database its journal is valid for. Here a
call is followed to each of its ends, on the databases of the runs it is in: `Relay.Ends` is the weakest
precondition with one postcondition for success and one for failure. What is asked of a failure is that
it can be blamed on the database, the pool or the outbox once an effect has been had (`Blamed`); a
failed operation always can, so that only the checks of the code itself have to be looked at. What a call
may do next is `Disciplined`: it updates a session by the version it has read under its lock, and it
claims once and marks a job once.
-/

namespace WebLoginRelay
open Text Txn

variable {st : AppState} {input : Input}

/-! ## Failures -/

/-- An operation on the database, the pool or the outbox was answered by an error. -/
def Act.Fails : Act → Prop
  | ⟨.sendNotice .., Except.error _, _⟩ => True
  | ⟨.begin, Except.error _, _⟩ => True
  | ⟨.exec _, Except.error _, _⟩ => True
  | ⟨.commit, Except.error _, _⟩ => True
  | ⟨.rollback, Except.error _, _⟩ => True
  | ⟨.auto _, Except.error _, _⟩ => True
  | _ => False

/-- An action that neither commits, nor reaches a site, nor runs a statement of its own. -/
def Act.IsQuiet (a : Act) : Prop :=
  match a.op with
  | .commit => False
  | .request _ => False
  | .auto _ => False
  | _ => True

/-- An effect was had, and then an operation failed. -/
def FailsAfter (effect : Act → Prop) (past : List Act) : Prop :=
  ∃ pre b post, past = pre ++ b :: post ∧ b.Fails ∧ ∃ a ∈ pre ++ [b], effect a

/-- The effect was not had, or an operation failed since. -/
def Blamed (effect : Act → Prop) (past : List Act) : Prop :=
  (∀ a ∈ past, ¬ effect a) ∨ FailsAfter effect past

section Blamed
variable {effect : Act → Prop} {past : List Act} {a : Act}

/-- A failed operation is to blame. -/
lemma Blamed.of_fails (h : a.Fails) : Blamed effect (past ++ [a]) := by
  by_cases none : ∀ b ∈ past ++ [a], ¬ effect b
  · exact .inl none
  · simp only [not_forall, not_not] at none
    obtain ⟨b, hb, he⟩ := none
    exact .inr ⟨past, a, [], rfl, h, b, hb, he⟩

/-- What is to blame stays so. -/
lemma Blamed.snoc (h : Blamed effect past) (ne : ¬ effect a) : Blamed effect (past ++ [a]) := by
  obtain none | ⟨pre, b, post, rfl, rest⟩ := h
  · refine .inl fun c hc => ?_
    obtain hc | hc := List.mem_append.mp hc
    · exact none c hc
    · exact List.mem_singleton.mp hc ▸ ne
  · exact .inr ⟨pre, b, post ++ [a], by simp, rest⟩

/-- Only the effect matters. -/
lemma Blamed.congr {effect' : Act → Prop} (h : Blamed effect past) (e : ∀ a, effect a ↔ effect' a) :
    Blamed effect' past := by
  have same : effect = effect' := funext fun a => propext (e a)
  exact same ▸ h

end Blamed

/-! ## Entries -/

/-- The entry writes a session. -/
def Entry.WritesSession : Entry → Bool
  | .sessionInsert _ => true
  | .sessionUpdate _ _ => true
  | _ => false

/-- The entry writes nothing. -/
def Entry.IsRead : Entry → Bool
  | .sessionRead _ => true
  | .grantRead _ => true
  | _ => false

/-- A commit that writes. -/
def Act.Commits (a : Act) : Prop := a.op = .commit ∧ ∃ e ∈ a.log, e.IsRead = false

/-- A commit is not quiet. -/
lemma Act.IsQuiet.not_commits {a : Act} (h : a.IsQuiet) : ¬ a.Commits := fun c => by
  simp only [IsQuiet, c.1] at h

/-- The statements that do not write sessions. -/
lemma Query.run_log {view : Db} {seqs : Seqs} {now : DateTime} {q : Query}
    (insert : ∀ new, q ≠ .insertSession new) (update : ∀ id version set, q ≠ .casUpdate id version set) :
    ∀ e ∈ (q.run view seqs now).log, e.WritesSession = false := by
  intro e he
  cases q with
  | insertSession new => exact absurd rfl (insert new)
  | casUpdate id version set => exact absurd rfl (update id version set)
  | selectSessions filter =>
    obtain ⟨_, _, rfl⟩ := List.mem_map.mp he
    rfl
  | selectGrants domain subjectHash =>
    obtain ⟨_, _, rfl⟩ := List.mem_map.mp he
    rfl
  | insertReplay key expiresAt =>
    simp only [run] at he
    split at he
    · cases he
    · exact List.mem_singleton.mp he ▸ rfl
  | upsertGrant new =>
    simp only [run] at he
    split at he
    · exact List.mem_singleton.mp he ▸ rfl
    · split at he
      · cases he
      · exact List.mem_singleton.mp he ▸ rfl
  | markRevoked id =>
    simp only [run] at he
    split at he
    · cases he
    · exact List.mem_singleton.mp he ▸ rfl
  | enqueue new =>
    simp only [run] at he
    split at he
    · cases he
    · split at he
      · cases he
      · exact List.mem_singleton.mp he ▸ rfl

/-- Entries that do not write sessions leave them. -/
lemma sessions_of_replay {db : Db} {es : List Entry} (h : ∀ e ∈ es, e.WritesSession = false) :
    (journal.replay db es).sessions = db.sessions := by
  induction es generalizing db with
  | nil => rfl
  | cons e es ih =>
    refine (ih fun e he => h e (List.mem_cons_of_mem _ he)).trans ?_
    have first := h e List.mem_cons_self
    cases e with
    | sessionInsert row => nomatch first
    | sessionUpdate row set => nomatch first
    | _ => rfl

/-- Reads leave the database as it is. -/
lemma replay_of_reads {db : Db} {es : List Entry} (h : ∀ e ∈ es, e.IsRead) :
    journal.replay db es = db := by
  induction es with
  | nil => rfl
  | cons e es ih =>
    have rest := ih fun e he => h e (List.mem_cons_of_mem _ he)
    have first := h e List.mem_cons_self
    cases e with
    | sessionRead row => exact rest
    | grantRead row => exact rest
    | _ => nomatch first

/-- A row that a transaction has read and not written is there. -/
lemma mem_of_sessionRead {db : Db} {es : List Entry} {row : SessionRow} (vl : journal.Valid db es)
    (h : ∀ e ∈ es, e.WritesSession = false) (read : .sessionRead row ∈ es) : row ∈ db.sessions := by
  obtain ⟨pre, post, rfl⟩ := List.append_of_mem read
  have mem : row ∈ (journal.replay db pre).sessions := ((journal.valid_append).mp vl).2.1
  rwa [sessions_of_replay fun e he => h e (List.mem_append_left _ he)] at mem

/-! ## Databases of runs -/

/-- In some run this is the database while a call has done this. -/
def Reached (st : AppState) (input : Input) (l : Local) (db : Db) : Prop :=
  ∃ ls S t rest, Run st ls S ∧ S.tasks t = some ⟨input, rest, l⟩ ∧ S.db = db

/-- The journal of the call is valid. -/
lemma Reached.valid {l : Local} {db : Db} (h : Reached st input l db) : journal.Valid db l.log := by
  obtain ⟨ls, S, t, rest, r, task, rfl⟩ := h
  exact r.inv.valid task

/-- A response and its action are possible in some run. -/
def Local.PossIn (st : AppState) (input : Input) (l : Local) (o : Op) (r : o.Resp) (a : Act) : Prop :=
  ∃ es, a = ⟨o, r, es⟩ ∧ ∃ db seqs seqs', Reached st input l db ∧ OpStep db seqs l a seqs'

/-- What holds of a call when it starts holds of what is left of it. -/
theorem Run.within {A : Local → Act → Prop} {Q : Result → Local → Prop}
    (start : Prog.wp (Local.PossIn st input) Local.after A (input.prog st) Q {})
    {ls S} (r : Run st ls S) {t p l} (h : S.tasks t = some ⟨input, some p, l⟩) :
    Prog.wp (Local.PossIn st input) Local.after A p Q l := by
  induction r generalizing t p l with
  | init => cases h
  | @step ls S lb S' r s ih =>
    cases s with
    | @spawn u input' free wf =>
      by_cases hu : t = u
      · subst hu
        simp only [Sys.set, Function.update_self, Option.some.injEq] at h
        cases h
        exact start
      · simp only [Sys.set, Function.update_of_ne hu] at h
        exact ih h
    | @act u input' o k l' x es seqs hm o' fr =>
      by_cases hu : t = u
      · subst hu
        simp only [Sys.set, Function.update_self, Option.some.injEq] at h
        cases h
        exact (ih hm x _ ⟨es, rfl, S.db, S.seqs, seqs, ⟨ls, S, t, _, r, hm, rfl⟩, o'⟩).2
      · simp only [Sys.set, Function.update_of_ne hu] at h
        exact ih h
    | @cancel u input' p' l' hm =>
      by_cases hu : t = u
      · subst hu
        simp only [Sys.set, Function.update_self, Option.some.injEq] at h
        cases h
      · simp only [Sys.set, Function.update_of_ne hu] at h
        exact ih h

/-! ## What a call may do -/

/-- The action marks the job. -/
def Act.Marks (a : Act) (id : Nat) : Prop :=
  a.op = .auto (.markDelivered id) ∨ a.op = .auto (.markFailed id)

/-- The request is the post of a job with this id that the call has claimed. -/
def PostOf (st : AppState) (past : List Act) (id : Nat) (r : SiteRequest) : Prop :=
  ∃ job payload, Claimed past job ∧ job.id = id ∧ st.decrypt job.payloadCiphertext = .ok payload ∧
    r = job.post payload

/-- The site has accepted the request. -/
def Act.Accepts (r : SiteRequest) (a : Act) : Prop :=
  ∃ (response : SiteResponse) (es : List Entry), a = ⟨.request r, Except.ok response, es⟩ ∧
    (response.status = 202 ∨ response.status = 200)

/-- What a call may do next. -/
def Disciplined (st : AppState) (l : Local) (a : Act) : Prop :=
  match a.op with
  | .exec (.insertSession _) => ∀ e ∈ l.log, e.WritesSession = false
  | .exec (.casUpdate id version _) => (∀ e ∈ l.log, e.WritesSession = false) ∧
    ∃ row, .sessionRead row ∈ l.log ∧ row.id = id ∧ row.version = version
  | .auto (.claimDue _) => ∀ b ∈ l.past, ∀ n, b.op ≠ .auto (.claimDue n)
  | .auto (.markDelivered id) => ∀ b ∈ l.past, ¬ b.Marks id
  | .auto (.markFailed id) => (∀ b ∈ l.past, ¬ b.Marks id) ∧
    ∀ r, PostOf st l.past id r → Blamed (Act.Accepts r) l.past
  | .request r => r.method = .post → ∀ id, PostOf st l.past id r → ∀ b ∈ l.past, ¬ b.Marks id
  | _ => True

/-- Quiet actions keep `I`, and those that fail leave `E`. -/
structure Keeps (E I : List Act → Prop) : Prop where
  quiet : ∀ p a, a.IsQuiet → I p → I (p ++ [a])
  failed : ∀ p a, a.IsQuiet → a.Fails → I p → E (p ++ [a])

namespace Relay
variable {E : List Act → Prop} {α β : Type}

/-- From `l` the computation is disciplined; `P` holds when it succeeds, and `E` of what it has done when
it fails. -/
def Ends (st : AppState) (input : Input) (E : List Act → Prop) (x : Relay α) (P : α → Local → Prop)
    (l : Local) : Prop :=
  Prog.wp (Local.PossIn st input) Local.after (Disciplined st) x.run (fun r l =>
    match r with
    | .ok a => P a l
    | .error _ => E l.past) l

section Rules
variable {P : α → Local → Prop} {l : Local}

/-- A result ends where it starts. -/
lemma ends_pure {a : α} : Ends st input E (pure a) P l ↔ P a l := Iff.rfl

/-- The second part starts where the first one has succeeded. -/
lemma ends_bind {x : Relay α} {f : α → Relay β} {P : β → Local → Prop} :
    Ends st input E (x >>= f) P l ↔
      Ends st input E x (fun a => Ends st input E (f a) P) l := by
  have e : (x >>= f).run = x.run >>= ExceptT.bindCont f := rfl
  rw [Ends, e, Prog.wp_bind]
  refine ⟨Prog.wp_mono _ _ _ fun r l h => ?_, Prog.wp_mono _ _ _ fun r l h => ?_⟩
  · cases r <;> exact h
  · cases r <;> exact h

/-- A result without effects fails or goes on. -/
lemma ends_liftResult {r : Except RelayError α} (bad : ∀ e, r = .error e → E l.past)
    (h : ∀ a, r = .ok a → P a l) : Ends st input E (liftResult r) P l := by
  cases r with
  | ok a => exact h a rfl
  | error e => exact bad e rfl

/-- An operation is answered in every way that is possible in some run. -/
lemma ends_ask {o : Op} {P : o.Resp → Local → Prop} :
    Ends st input E (ask o) P l ↔
      ∀ r a, l.PossIn st input o r a → Disciplined st l a ∧ P r (l.after a) := by
  have e : (ask o).run = Prog.ask o >>= fun r => pure (.ok r) := rfl
  rw [Ends, e, Prog.wp_bind, Prog.wp_ask]
  exact Iff.rfl

/-- Less may be said of the end. -/
lemma ends_mono {x : Relay α} {P' : α → Local → Prop} (h : ∀ a l, P a l → P' a l)
    (w : Ends st input E x P l) : Ends st input E x P' l := by
  refine Prog.wp_mono _ _ _ (fun r l => ?_) w
  cases r with
  | ok a => exact h a l
  | error e => exact id

/-- A call that ends so returns so. -/
lemma Ends.call {x : Relay α} {f : Except RelayError α → Result} {Q : Result → Local → Prop}
    (w : Ends st input E x P l) (ok : ∀ a l, P a l → Q (f (.ok a)) l)
    (failed : ∀ e l, E l.past → Q (f (.error e)) l) :
    Prog.wp (Local.PossIn st input) Local.after (Disciplined st) (f <$> x.run) Q l := by
  rw [map_eq_pure_bind, Prog.wp_bind]
  refine Prog.wp_mono _ _ _ (fun r l h => ?_) w
  cases r with
  | ok a => exact ok a l h
  | error e => exact failed e l h

end Rules

/-! ## Rules for the operations

`I` is what is known of the past: every quiet action keeps it, and leaves `E` when it fails. -/

section Operations
variable {I : List Act → Prop} {p : List Act} {tx : Option DateTime} {τ : DateTime} {lg : List Entry}

/-- The clock is always answered. -/
lemma ends_nowMs {P : Int64 → Local → Prop} (keep : ∀ p a, a.IsQuiet → I p → I (p ++ [a])) (hI : I p) (h : ∀ t p', I p' → P t ⟨p', tx, lg⟩) :
    Ends st input E nowMs P ⟨p, tx, lg⟩ := by
  refine ends_ask.mpr fun r a ⟨es, e, db, seqs, seqs', reached, s⟩ => ?_
  subst e
  cases s
  exact ⟨trivial, h _ _ (keep _ _ trivial hI)⟩

/-- So are random bytes. -/
lemma ends_fillBytes {n} {P : { b : Bytes // b.length = n } → Local → Prop}
    (keep : ∀ p a, a.IsQuiet → I p → I (p ++ [a])) (hI : I p)
    (h : ∀ b p', I p' → P b ⟨p', tx, lg⟩) : Ends st input E (fillBytes n) P ⟨p, tx, lg⟩ := by
  refine ends_ask.mpr fun r a ⟨es, e, db, seqs, seqs', reached, s⟩ => ?_
  subst e
  cases s
  exact ⟨trivial, h _ _ (keep _ _ trivial hI)⟩

/-- Encryption may fail, before the effect. -/
lemma ends_encrypt {m : Bytes} {P : Bytes → Local → Prop}
    (keep : ∀ p a, a.IsQuiet → I p → I (p ++ [a])) (hI : I p)
    (bad : ∀ p', I p' → E p') (h : ∀ c p', I p' → P c ⟨p', tx, lg⟩) :
    Ends st input E (st.encrypt m) P ⟨p, tx, lg⟩ :=
  ends_bind.mpr (ends_fillBytes keep hI fun _ p' hI' =>
    ends_liftResult (fun _ _ => bad p' hI') fun c _ => h c p' hI')

/-- A notice is sent, or refused. -/
lemma ends_sendNotice {roomId body : String} {P : Unit → Local → Prop}
    (keep : ∀ p a, a.IsQuiet → I p → I (p ++ [a])) (hI : I p)
    (failed : ∀ x, E (p ++ [⟨.sendNotice roomId body, Except.error x, []⟩]))
    (h : ∀ p', I p' → P () ⟨p', tx, lg⟩) :
    Ends st input E (sendNotice roomId body) P ⟨p, tx, lg⟩ := by
  refine ends_bind.mpr (ends_ask.mpr fun answer a ⟨es, e, db, seqs, seqs', reached, s⟩ => ?_)
  subst e
  cases s
  refine ⟨trivial, ends_liftResult (fun x e => ?_) fun u e => ?_⟩
  · subst e
    exact failed x
  · subst e
    exact h _ (keep _ _ trivial hI)

/-- A site answers, or the request fails. -/
lemma ends_request {r : SiteRequest} {P : SiteResponse → Local → Prop}
    (ok : ∀ db answer, Reached st input ⟨p, tx, lg⟩ db →
      Disciplined st ⟨p, tx, lg⟩ ⟨.request r, answer, []⟩)
    (bad : ∀ e, E (p ++ [⟨.request r, Except.error e, []⟩]))
    (h : ∀ response, P response ⟨p ++ [⟨.request r, Except.ok response, []⟩], tx, lg⟩) :
    Ends st input E (request r) P ⟨p, tx, lg⟩ := by
  refine ends_bind.mpr (ends_ask.mpr fun answer a ⟨es, e, db, seqs, seqs', reached, s⟩ => ?_)
  subst e
  cases s
  refine ⟨ok db _ reached, ends_liftResult (fun x e => ?_) fun response e => ?_⟩
  · subst e
    exact bad x
  · subst e
    exact h response

/-- A commit is answered, or fails. -/
lemma ends_commit {P : Unit → Local → Prop}
    (failed : ∀ x es, E (p ++ [⟨.commit, (Except.error x : Except DbError Unit), es⟩]))
    (h : P () ⟨p ++ [⟨.commit, (Except.ok () : Except DbError Unit), lg⟩], none, []⟩) :
    Ends st input E commit P ⟨p, some τ, lg⟩ := by
  refine ends_bind.mpr (ends_ask.mpr fun answer a ⟨es, e, db, seqs, seqs', reached, s⟩ => ?_)
  subst e
  refine ⟨trivial, ends_liftResult (fun x e => ?_) fun u e => ?_⟩
  · cases answer with
    | ok u => nomatch e
    | error x => exact failed x es
  · cases answer with
    | error x => nomatch e
    | ok u =>
      cases s
      exact h

variable (keep : Keeps E I)
include keep

/-- A rollback empties the journal, or fails. -/
lemma ends_rollback {P : Unit → Local → Prop} (hI : I p) (h : ∀ p', I p' → P () ⟨p', none, []⟩) :
    Ends st input E rollback P ⟨p, tx, lg⟩ := by
  refine ends_bind.mpr (ends_ask.mpr fun answer a ⟨es, e, db, seqs, seqs', reached, s⟩ => ?_)
  subst e
  cases s
  refine ⟨trivial, ends_liftResult (fun x e => ?_) fun u e => ?_⟩
  · cases answer with
    | ok u => nomatch e
    | error x => exact keep.failed _ _ trivial trivial hI
  · exact h _ (keep.quiet _ _ trivial hI)

/-- A transaction ends with `drop`. -/
lemma ends_inTx {body : Relay α} {P : α → Local → Prop} (hI : I p)
    (ended : ∀ p a, a.IsQuiet → E p → E (p ++ [a]))
    (stable : ∀ x l a, a.IsQuiet → P x l → P x (l.after a))
    (h : ∀ τ p', I p' → Ends st input E body P ⟨p', some τ, []⟩) :
    Ends st input E (inTx body) P ⟨p, tx, lg⟩ := by
  refine (Prog.wp_bind _ _ _).mpr ((Prog.wp_ask _ _ _).mpr fun begun a ⟨es, e, db, seqs, seqs', reached, s⟩ => ?_)
  subst e
  cases s
  refine ⟨trivial, ?_⟩
  cases begun with
  | error e => exact keep.failed _ _ trivial trivial hI
  | ok τ =>
    refine (Prog.wp_bind _ _ _).mpr (Prog.wp_mono _ _ _ (fun x l hx => ?_) (h τ _ (keep.quiet _ _ trivial hI)))
    refine (Prog.wp_bind _ _ _).mpr ((Prog.wp_ask _ _ _).mpr fun _ a ⟨es, e, db, seqs, seqs', reached, s⟩ => ?_)
    subst e
    cases s
    refine ⟨trivial, ?_⟩
    cases x with
    | ok a => exact stable a l _ trivial hx
    | error e => exact ended _ _ trivial hx

/-- A statement that fails is to blame; otherwise it ran on the database with the journal replayed. -/
lemma ends_statement {q : Query} {P : α → Local → Prop} {read : Except DbError q.Resp → Except RelayError α}
    (hI : I p) (ok : ∀ r es, Disciplined st ⟨p, some τ, lg⟩ ⟨.exec q, r, es⟩)
    (failed : ∀ e a, read (.error e) ≠ .ok a) (total : ∀ r, ∃ a, read (.ok r) = .ok a)
    (h : ∀ db seqs r a p', Reached st input ⟨p, some τ, lg⟩ db →
      (q.run (journal.replay db lg) seqs τ).resp = .ok r → read (.ok r) = .ok a → I p' →
      P a ⟨p', some τ, lg ++ (q.run (journal.replay db lg) seqs τ).log⟩) :
    Ends st input E (do liftResult (read (← ask (.exec q)))) P ⟨p, some τ, lg⟩ := by
  refine ends_bind.mpr (ends_ask.mpr fun answer a ⟨es, e, db, seqs, seqs', reached, s⟩ => ?_)
  subst e
  cases s with
  | exec e =>
    cases e
    refine ⟨ok _ _, ?_⟩
    have run := h db seqs
    generalize q.run (journal.replay db lg) seqs τ = out at run ⊢
    obtain ⟨resp, log, seqs'⟩ := out
    cases resp with
    | error err =>
      exact ends_liftResult (fun _ _ => keep.failed _ _ trivial trivial hI) fun a e => absurd e (failed err a)
    | ok r =>
      refine ends_liftResult (fun x e => ?_) fun a e => run r a _ reached rfl e (keep.quiet _ _ trivial hI)
      obtain ⟨a, e'⟩ := total r
      nomatch e.symm.trans e'
  | execFault =>
    exact ⟨ok _ _, ends_liftResult (fun _ _ => keep.failed _ _ trivial trivial hI) fun a e => absurd e (failed _ a)⟩

/-- A statement whose errors are all internal. -/
lemma ends_exec {q : Query} {P : q.Resp → Local → Prop} (hI : I p)
    (ok : ∀ r es, Disciplined st ⟨p, some τ, lg⟩ ⟨.exec q, r, es⟩)
    (h : ∀ db seqs r p', Reached st input ⟨p, some τ, lg⟩ db →
      (q.run (journal.replay db lg) seqs τ).resp = .ok r → I p' →
      P r ⟨p', some τ, lg ++ (q.run (journal.replay db lg) seqs τ).log⟩) :
    Ends st input E (exec q) P ⟨p, some τ, lg⟩ := by
  refine ends_statement keep hI ok (fun e a eq => nomatch eq) (fun r => ⟨r, rfl⟩)
    fun db seqs r a p' reached run eq hI' => ?_
  cases eq
  exact h db seqs r p' reached run hI'

/-- A statement whose unique violations are a conflict. -/
lemma ends_execUnique {q : Query} {code : ProblemCode} {P : q.Resp → Local → Prop} (hI : I p)
    (ok : ∀ r es, Disciplined st ⟨p, some τ, lg⟩ ⟨.exec q, r, es⟩)
    (h : ∀ db seqs r p', Reached st input ⟨p, some τ, lg⟩ db →
      (q.run (journal.replay db lg) seqs τ).resp = .ok r → I p' →
      P r ⟨p', some τ, lg ++ (q.run (journal.replay db lg) seqs τ).log⟩) :
    Ends st input E (execUnique code q) P ⟨p, some τ, lg⟩ := by
  refine ends_statement keep hI ok (fun e a eq => ?_) (fun r => ⟨r, rfl⟩)
    fun db seqs r a p' reached run eq hI' => ?_
  · cases e <;> exact nomatch eq
  · cases eq
    exact h db seqs r p' reached run hI'

/-- A lookup yields no row, or one that is there and stays locked. -/
lemma ends_selectSessions {filter : SessionFilter} {P : Option SessionRow → Local → Prop} (hI : I p)
    (many : ∀ p' db row row' rows, I p' → Reached st input ⟨p, some τ, lg⟩ db →
      (journal.replay db lg).sessions.rows.filter filter.accepts = row :: row' :: rows →
      E p')
    (hn : ∀ p' db, I p' → Reached st input ⟨p, some τ, lg⟩ db →
      (∀ row ∈ (journal.replay db lg).sessions, ¬ filter.accepts row) → P none ⟨p', some τ, lg⟩)
    (hs : ∀ row p' db, I p' → Reached st input ⟨p, some τ, lg⟩ db → filter.accepts row →
      row ∈ (journal.replay db lg).sessions → P (some row) ⟨p', some τ, lg ++ [.sessionRead row]⟩) :
    Ends st input E (do liftResult (queryOpt (← exec (.selectSessions filter)))) P
      ⟨p, some τ, lg⟩ := by
  refine ends_bind.mpr (ends_exec keep hI (fun _ _ => trivial) fun db seqs rows p' reached run hI' => ?_)
  cases run
  simp only [Query.run]
  generalize eq : (journal.replay db lg).sessions.rows.filter filter.accepts = rows
  cases rows with
  | nil =>
    refine ends_liftResult (fun _ e => by cases e) fun o e => ?_
    cases e
    simpa using hn p' db hI' reached fun row mem acc => by
      have : row ∈ (journal.replay db lg).sessions.rows.filter filter.accepts :=
        List.mem_filter.mpr ⟨mem, acc⟩
      rw [eq] at this
      cases this
  | cons row rows =>
    cases rows with
    | nil =>
      refine ends_liftResult (fun _ e => by cases e) fun o e => ?_
      cases e
      have mem : row ∈ (journal.replay db lg).sessions.rows.filter filter.accepts := by simp [eq]
      exact hs row p' db hI' reached (List.mem_filter.mp mem).2 (List.mem_filter.mp mem).1
    | cons row' rows =>
      exact ends_liftResult (fun _ _ => many p' db row row' rows hI' reached eq) fun o e => by cases e

/-- A lookup of a grant yields nothing, or reads one. -/
lemma ends_findActiveGrant {domain : String} {subjectHash : Bytes} {P : Option GrantRow → Local → Prop}
    (hI : I p) (bad : ∀ p', I p' → E p') (hn : ∀ p', I p' → P none ⟨p', some τ, lg⟩)
    (hs : ∀ g p', I p' → P (some g) ⟨p', some τ, lg ++ [.grantRead g]⟩) :
    Ends st input E (findActiveGrant domain subjectHash) P ⟨p, some τ, lg⟩ := by
  refine ends_bind.mpr (ends_exec keep hI (fun _ _ => trivial) fun db seqs rows p' reached run hI' => ?_)
  cases run
  simp only [Query.run]
  generalize (journal.replay db lg).grants.rows.filter
    (fun g => g.domain == domain && g.subjectHash == subjectHash) = rows
  cases rows with
  | nil =>
    refine ends_liftResult (fun _ e => by cases e) fun o e => ?_
    cases e
    simpa using hn p' hI'
  | cons g rows =>
    cases rows with
    | nil =>
      refine ends_liftResult (fun _ e => by cases e) fun o e => ?_
      cases e
      exact hs g p' hI'
    | cons g' rows => exact ends_liftResult (fun _ _ => bad p' hI') fun o e => by cases e

/-- The entries of another statement. -/
lemma ends_plain {q : Query} {P : q.Resp → Local → Prop} (hI : I p)
    (insert : ∀ new, q ≠ .insertSession new) (update : ∀ id version set, q ≠ .casUpdate id version set)
    (h : ∀ r p' es, I p' → (∀ e ∈ es, e.WritesSession = false) → P r ⟨p', some τ, lg ++ es⟩) :
    Ends st input E (exec q) P ⟨p, some τ, lg⟩ := by
  refine ends_exec keep hI (fun r es => ?_) fun db seqs r p' _ _ hI' =>
    h r p' _ hI' (q.run_log insert update)
  cases q with
  | insertSession new => exact absurd rfl (insert new)
  | casUpdate id version set => exact absurd rfl (update id version set)
  | _ => trivial

/-- A key is reserved by an entry that writes no session. -/
lemma ends_reserve {code : ProblemCode} {key : ReplayKey} {t : DateTime} {P : Unit → Local → Prop}
    (hI : I p) (h : ∀ p' es, I p' → (∀ e ∈ es, e.WritesSession = false) → P () ⟨p', some τ, lg ++ es⟩) :
    Ends st input E (reserve code key t) P ⟨p, some τ, lg⟩ :=
  ends_bind.mpr (ends_execUnique keep hI (fun _ _ => trivial) fun _ _ _ p' _ _ hI' =>
    ends_pure.mpr (h p' _ hI' (Query.run_log (fun _ => nofun) fun _ _ _ => nofun)))

/-- A session is updated that the transaction has read and not written. -/
lemma ends_casUpdate {row : SessionRow} {set : SessionSet} {P : Bool → Local → Prop} (hI : I p)
    (read : .sessionRead row ∈ lg) (clean : ∀ e ∈ lg, e.WritesSession = false)
    (h : ∀ p', I p' → P true ⟨p', some τ, lg ++ [.sessionUpdate row set]⟩) :
    Ends st input E (casUpdate row.id row.version set) P ⟨p, some τ, lg⟩ := by
  refine ends_bind.mpr (ends_execUnique keep hI (fun _ _ => ⟨clean, row, read, rfl, rfl⟩)
    fun db seqs n p' reached run hI' => ends_pure.mpr ?_)
  have mem : row ∈ (journal.replay db lg).sessions := by
    rw [sessions_of_replay clean]
    exact mem_of_sessionRead reached.valid clean read
  simp only [Query.run, find_session mem] at run ⊢
  split at run
  · rename_i le
    cases run
    rw [if_pos le]
    exact h p' hI'
  · cases run

end Operations

end Relay

end WebLoginRelay
