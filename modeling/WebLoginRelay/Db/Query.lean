import WebLoginRelay.Db.Entries

/-!
# Statements

The SQL statements of `src/db`. A statement runs on the database its transaction sees and yields its
response, the journal entries for what it observed and wrote, and the advanced sequences. `NOW()` is
the start of the transaction. A value of a `BIGSERIAL` column is drawn from its sequence before a
conflict is looked for, and a drawn value is never given back.

The statements of `src/db/delivery.rs` that are run on a pooled connection, each a transaction of its
own, are `Auto`. The rows that `SKIP LOCKED` passes over are an argument, and the order in which
`RETURNING` yields the claimed rows is left open.
-/

namespace WebLoginRelay
open Text Txn

/-- The errors of `tokio_postgres` the relay tells apart: SQLSTATE 23505, and any other. -/
inductive DbError where
  | uniqueViolation
  | other
  deriving DecidableEq, Repr

/-- The sequences behind the `BIGSERIAL` columns. -/
structure Seqs where
  sessions : Nat := 1
  grants : Nat := 1
  jobs : Nat := 1
  deriving DecidableEq, Repr

/-- The largest `INTEGER`. -/
def maxInteger : Nat := 2147483647

/-- `NewSession`. -/
structure NewSession where
  domain : String
  sessionId : String
  nonceHash : Bytes
  nonceCiphertext : Bytes
  iat : Int64
  exp : Int64
  requestedDisplayName : String
  siteDisplayName : String
  sitePublicKey : String
  qrSignature : String
  registrationSignature : String
  registrationHash : Bytes
  deriving DecidableEq, Repr

/-- The row `insert_registered` inserts. -/
def NewSession.row (s : NewSession) (id : Nat) : SessionRow where
  id
  domain := s.domain
  sessionId := s.sessionId
  nonceHash := s.nonceHash
  nonceCiphertext := s.nonceCiphertext
  iat := s.iat
  exp := s.exp
  requestedDisplayName := s.requestedDisplayName
  siteDisplayName := s.siteDisplayName
  sitePublicKey := s.sitePublicKey
  qrSignature := s.qrSignature
  registrationSignature := s.registrationSignature
  registrationHash := s.registrationHash
  state := .siteRegistered
  version := 0
  requestEventId := none
  requestRoomCiphertext := none
  requestSenderCiphertext := none
  challengeHash := none
  challengeExpiresAt := none
  consentEventId := none
  displayNameCiphertext := none
  assertionJti := none
  assertionCiphertext := none

/-- The `WHERE` clauses of the session lookups. -/
inductive SessionFilter where
  | session (domain sessionId : String)
  | sessionAndNonce (sessionId : String) (nonceHash : Bytes)
  | matching (domain sessionId : String) (nonceHash : Bytes)
  deriving DecidableEq, Repr

/-- The row satisfies the clause. -/
def SessionFilter.accepts : SessionFilter → SessionRow → Bool
  | .session domain sessionId, r => r.domain == domain && r.sessionId == sessionId
  | .sessionAndNonce sessionId nonceHash, r => r.sessionId == sessionId && r.nonceHash == nonceHash
  | .matching domain sessionId nonceHash, r =>
    r.domain == domain && r.sessionId == sessionId && r.nonceHash == nonceHash

/-- What a session found by its domain and id has. -/
lemma SessionFilter.accepts_session {domain sessionId : String} {r : SessionRow} :
    (SessionFilter.session domain sessionId).accepts r ↔ r.domain = domain ∧ r.sessionId = sessionId := by
  simp only [accepts, Bool.and_eq_true, beq_iff_eq]

/-- What a session found by its id and nonce has. -/
lemma SessionFilter.accepts_sessionAndNonce {sessionId : String} {nonceHash : Bytes} {r : SessionRow} :
    (SessionFilter.sessionAndNonce sessionId nonceHash).accepts r ↔
      r.sessionId = sessionId ∧ r.nonceHash = nonceHash := by
  simp only [accepts, Bool.and_eq_true, beq_iff_eq]

/-- What a session found by all three has. -/
lemma SessionFilter.accepts_matching {domain sessionId : String} {nonceHash : Bytes} {r : SessionRow} :
    (SessionFilter.matching domain sessionId nonceHash).accepts r ↔
      r.domain = domain ∧ r.sessionId = sessionId ∧ r.nonceHash = nonceHash := by
  simp only [accepts, Bool.and_eq_true, beq_iff_eq, and_assoc]

/-- The values `upsert_grant` inserts. -/
structure NewGrant where
  domain : String
  subjectHash : Bytes
  subjectCiphertext : Bytes
  matrixUserCiphertext : Bytes
  sessionId : String
  nonceHash : Bytes
  subjectKeyVersion : Int32
  deriving DecidableEq, Repr

/-- The row `upsert_grant` inserts. -/
def NewGrant.row (g : NewGrant) (id : Nat) : GrantRow where
  id
  domain := g.domain
  subjectHash := g.subjectHash
  subjectCiphertext := g.subjectCiphertext
  matrixUserCiphertext := g.matrixUserCiphertext
  sessionId := g.sessionId
  nonceHash := g.nonceHash
  subjectKeyVersion := g.subjectKeyVersion
  revokedAt := none

/-- The values `enqueue` inserts. -/
structure NewJob where
  kind : JobKind
  domain : String
  jti : String
  payloadCiphertext : Bytes
  sessionId : String
  nonceHash : Bytes
  deriving DecidableEq, Repr

/-- The row `enqueue` inserts. -/
def NewJob.row (j : NewJob) (id : Nat) (now : DateTime) : DeliveryJob where
  id
  kind := j.kind
  domain := j.domain
  jti := j.jti
  payloadCiphertext := j.payloadCiphertext
  idempotencyKey := j.jti
  sessionId := j.sessionId
  nonceHash := j.nonceHash
  attempts := 0
  nextRetryAt := some now
  status := .pending

/-- The statements run inside a transaction. -/
inductive Query where
  /-- `insert_registered`, `ON CONFLICT DO NOTHING`. -/
  | insertSession (new : NewSession)
  /-- A session lookup, `FOR UPDATE`. -/
  | selectSessions (filter : SessionFilter)
  | casUpdate (id expectedVersion : Nat) (set : SessionSet)
  /-- An insert into one of the replay tables. -/
  | insertReplay (key : ReplayKey) (expiresAt : DateTime)
  | upsertGrant (new : NewGrant)
  /-- `find_active_grant`, `FOR UPDATE`. -/
  | selectGrants (domain : String) (subjectHash : Bytes)
  | markRevoked (id : Nat)
  /-- `enqueue`, `ON CONFLICT (jti) DO NOTHING`. -/
  | enqueue (new : NewJob)
  deriving DecidableEq, Repr

/-- What a statement yields when it succeeds: rows, or the number of rows changed. -/
@[reducible] def Query.Resp : Query → Type
  | .insertSession _ => Nat
  | .selectSessions _ => List SessionRow
  | .casUpdate .. => Nat
  | .insertReplay .. => Nat
  | .upsertGrant _ => GrantRow
  | .selectGrants .. => List GrantRow
  | .markRevoked _ => Nat
  | .enqueue _ => Nat

/-- The result of a statement. -/
structure Outcome (α : Type) where
  resp : Except DbError α
  log : List Entry := []
  seqs : Seqs

/-- Run a statement on what its transaction sees. -/
def Query.run (view : Db) (seqs : Seqs) (now : DateTime) : (q : Query) → Outcome q.Resp
  | .insertSession new =>
    let row := new.row seqs.sessions
    let seqs := { seqs with sessions := seqs.sessions + 1 }
    if view.sessions.Clashes row then ⟨.ok (0 : Nat), [], seqs⟩
    else ⟨.ok (1 : Nat), [.sessionInsert row], seqs⟩
  | .selectSessions filter =>
    let rows := view.sessions.rows.filter filter.accepts
    ⟨.ok rows, rows.map .sessionRead, seqs⟩
  | .casUpdate id expectedVersion set =>
    match view.sessions.rows.find? fun r => r.id == id && r.version == expectedVersion with
    | none => ⟨.ok (0 : Nat), [], seqs⟩
    | some row =>
      if row.version + 1 ≤ maxInteger then ⟨.ok (1 : Nat), [.sessionUpdate row set], seqs⟩
      else ⟨.error .other, [], seqs⟩
  | .insertReplay key expiresAt =>
    if view.replay.Clashes ⟨key, expiresAt⟩ then ⟨.error .uniqueViolation, [], seqs⟩
    else ⟨.ok (1 : Nat), [.replayInsert ⟨key, expiresAt⟩], seqs⟩
  | .upsertGrant new =>
    let row := new.row seqs.grants
    let seqs := { seqs with grants := seqs.grants + 1 }
    match view.grants.rows.find? fun g =>
        g.domain == new.domain && g.subjectHash == new.subjectHash with
    | some g =>
      let set := GrantSet.relink new.sessionId new.nonceHash
      ⟨.ok (set.on g), [.grantUpdate g set], seqs⟩
    | none =>
      if view.grants.Clashes row then ⟨.error .uniqueViolation, [], seqs⟩
      else ⟨.ok row, [.grantInsert row], seqs⟩
  | .selectGrants domain subjectHash =>
    let rows := view.grants.rows.filter fun g => g.domain == domain && g.subjectHash == subjectHash
    ⟨.ok rows, rows.map .grantRead, seqs⟩
  | .markRevoked id =>
    match view.grants.rows.find? fun g => g.id == id && g.revokedAt.isNone with
    | none => ⟨.ok (0 : Nat), [], seqs⟩
    | some g => ⟨.ok (1 : Nat), [.grantUpdate g (.revoke now)], seqs⟩
  | .enqueue new =>
    let row := new.row seqs.jobs now
    let seqs := { seqs with jobs := seqs.jobs + 1 }
    if view.jobs.rows.any (·.jti == new.jti) then ⟨.ok (0 : Nat), [], seqs⟩
    else if view.jobs.Clashes row then ⟨.error .uniqueViolation, [], seqs⟩
    else ⟨.ok (1 : Nat), [.jobInsert row], seqs⟩

/-- The statements that are transactions of their own. -/
inductive Auto where
  | claimDue (limit : Nat)
  | markDelivered (id : Nat)
  | markFailed (id : Nat)
  deriving DecidableEq, Repr

/-- What such a statement yields. -/
@[reducible] def Auto.Resp : Auto → Type
  | .claimDue _ => List DeliveryJob
  | .markDelivered _ => Nat
  | .markFailed _ => Nat

/-- `INTERVAL '5 seconds'`. -/
def retryInterval : Int := 5000000

/-- `status = 'pending' AND (next_retry_at IS NULL OR next_retry_at <= NOW())`. -/
def DeliveryJob.isDue (now : DateTime) (j : DeliveryJob) : Bool :=
  j.status == .pending && j.nextRetryAt.all (· ≤ now)

/-- The rows `claim_due` updates, in the order of their ids. -/
def Db.dueJobs (db : Db) (now : DateTime) (limit : Nat) (locked : List Nat) : List DeliveryJob :=
  ((db.jobs.rows.filter fun j => j.isDue now && !locked.contains j.id).insertionSort
    fun i j => i.id ≤ j.id).take limit

/-- Set the status of one job. -/
def Db.markJob (db : Db) (seqs : Seqs) (id : Nat) (status : JobStatus) : Outcome Nat :=
  match db.jobs.rows.find? (·.id == id) with
  | none => ⟨.ok 0, [], seqs⟩
  | some j => ⟨.ok 1, [.jobUpdate j (.mark status)], seqs⟩

/-- Run a statement on the committed database, passing over the `locked` rows. -/
def Auto.run (db : Db) (seqs : Seqs) (now : DateTime) (locked : List Nat) :
    (a : Auto) → Outcome a.Resp
  | .claimDue limit =>
    let jobs := db.dueJobs now limit locked
    let set := JobSet.claim (now + retryInterval)
    if jobs.all (·.attempts + 1 ≤ maxInteger) then
      ⟨.ok (jobs.map set.on), jobs.map (.jobUpdate · set), seqs⟩
    else ⟨.error .other, [], seqs⟩
  | .markDelivered id => db.markJob seqs id .delivered
  | .markFailed id => db.markJob seqs id .failed

/-- The responses a statement may give for one outcome: rows may come in any order. -/
def Auto.Reorders : (a : Auto) → a.Resp → a.Resp → Prop
  | .claimDue _, xs, ys => @List.Perm DeliveryJob xs ys
  | .markDelivered _, m, n => m = n
  | .markFailed _, m, n => m = n

/-- The order may stay as it is. -/
@[refl] lemma Auto.Reorders.refl : {a : Auto} → (r : a.Resp) → a.Reorders r r
  | .claimDue _, xs => @List.Perm.refl DeliveryJob xs
  | .markDelivered _, _ => rfl
  | .markFailed _, _ => rfl

/-! ## What a statement records is what it saw -/

/-- Rows that were read are there. -/
lemma valid_sessionRead {db : Db} {rows : List SessionRow} (h : ∀ r ∈ rows, r ∈ db.sessions) :
    journal.Valid db (rows.map .sessionRead) := by
  induction rows with
  | nil => trivial
  | cons r rows ih => exact ⟨h r (by simp), ih fun s hs => h s (by simp [hs])⟩

/-- Grants that were read are there. -/
lemma valid_grantRead {db : Db} {rows : List GrantRow} (h : ∀ g ∈ rows, g ∈ db.grants) :
    journal.Valid db (rows.map .grantRead) := by
  induction rows with
  | nil => trivial
  | cons g rows ih => exact ⟨h g (by simp), ih fun s hs => h s (by simp [hs])⟩

/-- Updates of jobs with different ids do not disturb each other. -/
lemma valid_jobUpdate {db : Db} {set : JobSet} {jobs : List DeliveryJob}
    (h : ∀ j ∈ jobs, j ∈ db.jobs) (nd : jobs.Pairwise fun i j => i.id ≠ j.id) :
    journal.Valid db (jobs.map (.jobUpdate · set)) := by
  induction jobs generalizing db with
  | nil => trivial
  | cons j jobs ih =>
    obtain ⟨ne, nd⟩ := List.pairwise_cons.mp nd
    refine ⟨h j (by simp), ih (fun i hi => ?_) nd⟩
    exact (db.mem_updateJob j.id).mpr ⟨i, h i (by simp [hi]), JobSet.at_ne (Ne.symm (ne i hi))⟩

/-- The entries of a statement hold on what it saw. -/
lemma Query.run_valid (view : Db) (seqs : Seqs) (now : DateTime) (q : Query) :
    journal.Valid view (q.run view seqs now).log := by
  cases q with
  | insertSession new =>
    simp only [run]
    split
    · trivial
    · rename_i h
      exact ⟨h, trivial⟩
  | selectSessions filter => exact valid_sessionRead fun r hr => (List.mem_filter.mp hr).1
  | casUpdate id version set =>
    simp only [run]
    split
    · trivial
    · rename_i row e
      split
      · exact ⟨List.mem_of_find?_eq_some e, trivial⟩
      · trivial
  | insertReplay key expiresAt =>
    simp only [run]
    split
    · trivial
    · rename_i h
      exact ⟨h, trivial⟩
  | upsertGrant new =>
    simp only [run]
    split
    · rename_i g e
      exact ⟨List.mem_of_find?_eq_some e, trivial⟩
    · split
      · trivial
      · rename_i h
        exact ⟨h, trivial⟩
  | selectGrants domain subjectHash => exact valid_grantRead fun g hg => (List.mem_filter.mp hg).1
  | markRevoked id =>
    simp only [run]
    split
    · trivial
    · rename_i g e
      exact ⟨List.mem_of_find?_eq_some e, trivial⟩
  | enqueue new =>
    simp only [run]
    split
    · trivial
    · split
      · trivial
      · rename_i h
        exact ⟨h, trivial⟩

/-- Due jobs are jobs. -/
lemma Db.mem_of_mem_dueJobs {db : Db} {now limit locked j} (h : j ∈ db.dueJobs now limit locked) :
    j ∈ db.jobs ∧ j.isDue now := by
  have m := List.mem_of_mem_take h
  rw [List.mem_insertionSort, List.mem_filter] at m
  exact ⟨m.1, by simpa using (Bool.and_eq_true _ _ ▸ m.2).1⟩

/-- Due jobs have different ids. -/
lemma Db.dueJobs_ids {db : Db} {now limit locked} :
    (db.dueJobs now limit locked).Pairwise fun i j => i.id ≠ j.id := by
  have nd : db.jobs.rows.Pairwise fun i j => i.id ≠ j.id := db.jobs.unique.imp fun h e => h (.inl e)
  refine List.Pairwise.sublist (List.take_sublist _ _) ?_
  exact (List.perm_insertionSort _ _).symm.pairwise (List.Pairwise.filter _ nd) fun h => Ne.symm h

/-- The entries of an autocommitted statement hold on the committed database. -/
lemma Auto.run_valid (db : Db) (seqs : Seqs) (now : DateTime) (locked : List Nat) (a : Auto) :
    journal.Valid db (a.run db seqs now locked).log := by
  have mark (id : Nat) (status : JobStatus) : journal.Valid db (db.markJob seqs id status).log := by
    unfold Db.markJob
    split
    · trivial
    · rename_i j e
      exact ⟨List.mem_of_find?_eq_some e, trivial⟩
  cases a with
  | claimDue limit =>
    simp only [run]
    split
    · exact valid_jobUpdate (fun j hj => (Db.mem_of_mem_dueJobs hj).1) Db.dueJobs_ids
    · trivial
  | markDelivered id => exact mark id .delivered
  | markFailed id => exact mark id .failed

end WebLoginRelay
