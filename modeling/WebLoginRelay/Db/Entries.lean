import WebLoginRelay.Db.Tables
import WebLoginRelay.Txn.Journal

/-!
# Journal entries of the relay's transactions

What a statement observed and wrote, and the cells PostgreSQL keeps locked for it until the end of the
transaction: a row read `FOR UPDATE` or updated is locked by its key, and an inserted row locks the
keys it makes unique, because a second insert of the same key waits for the first transaction to end.
`journal` is the instance of `Txn.Journal`, so that its theorems apply to the relay's database.
-/

namespace WebLoginRelay
open Text Txn

/-- One observation or write of a transaction. -/
inductive Entry where
  | sessionRead (row : SessionRow)
  | sessionInsert (row : SessionRow)
  | sessionUpdate (row : SessionRow) (set : SessionSet)
  | replayInsert (row : ReplayRow)
  | grantRead (row : GrantRow)
  | grantInsert (row : GrantRow)
  | grantUpdate (row : GrantRow) (set : GrantSet)
  | jobInsert (row : DeliveryJob)
  | jobUpdate (row : DeliveryJob) (set : JobSet)
  deriving DecidableEq, Repr

/-- What can be locked: rows by their key, and keys that no row has yet. -/
inductive Cell where
  | session (id : Nat)
  | sessionKey (domain sessionId : String)
  | sessionNonce (domain : String) (nonceHash : Bytes)
  | replay (key : ReplayKey)
  | grant (domain : String) (subjectHash : Bytes)
  | grantId (id : Nat)
  | job (id : Nat)
  | jti (jti : String)
  deriving DecidableEq

section Keys

@[simp] lemma SessionSet.on_id (c : SessionSet) (r) : (c.on r).id = r.id := rfl
@[simp] lemma SessionSet.on_domain (c : SessionSet) (r) : (c.on r).domain = r.domain := rfl
@[simp] lemma SessionSet.on_sessionId (c : SessionSet) (r) : (c.on r).sessionId = r.sessionId := rfl
@[simp] lemma SessionSet.on_nonceHash (c : SessionSet) (r) : (c.on r).nonceHash = r.nonceHash := rfl
@[simp] lemma SessionSet.on_state (c : SessionSet) (r) : (c.on r).state = c.state := rfl

@[simp] lemma GrantSet.on_id (c : GrantSet) (g) : (c.on g).id = g.id := by cases c <;> rfl
@[simp] lemma GrantSet.on_domain (c : GrantSet) (g) : (c.on g).domain = g.domain := by cases c <;> rfl
@[simp] lemma GrantSet.on_subjectHash (c : GrantSet) (g) : (c.on g).subjectHash = g.subjectHash := by
  cases c <;> rfl

@[simp] lemma JobSet.on_id (c : JobSet) (j) : (c.on j).id = j.id := by cases c <;> rfl
@[simp] lemma JobSet.on_jti (c : JobSet) (j) : (c.on j).jti = j.jti := by cases c <;> rfl
@[simp] lemma JobSet.on_kind (c : JobSet) (j) : (c.on j).kind = j.kind := by cases c <;> rfl
@[simp] lemma JobSet.on_domain (c : JobSet) (j) : (c.on j).domain = j.domain := by cases c <;> rfl
@[simp] lemma JobSet.on_sessionId (c : JobSet) (j) : (c.on j).sessionId = j.sessionId := by
  cases c <;> rfl
@[simp] lemma JobSet.on_payloadCiphertext (c : JobSet) (j) :
    (c.on j).payloadCiphertext = j.payloadCiphertext := by cases c <;> rfl

end Keys

/-- An update of the session `id`, on any session. -/
def SessionSet.at (c : SessionSet) (id : Nat) (r : SessionRow) : SessionRow :=
  if r.id = id then c.on r else r

/-- An update of the grant of a subject, on any grant. -/
def GrantSet.at (c : GrantSet) (domain : String) (subjectHash : Bytes) (g : GrantRow) : GrantRow :=
  if g.domain = domain ∧ g.subjectHash = subjectHash then c.on g else g

/-- An update of the job `id`, on any job. -/
def JobSet.at (c : JobSet) (id : Nat) (j : DeliveryJob) : DeliveryJob := if j.id = id then c.on j else j

section Keys

@[simp, grind =] lemma SessionSet.at_id (c : SessionSet) (n r) : (c.at n r).id = r.id := by
  unfold SessionSet.at; split <;> rfl
@[simp, grind =] lemma SessionSet.at_domain (c : SessionSet) (n r) : (c.at n r).domain = r.domain := by
  unfold SessionSet.at; split <;> rfl
@[simp, grind =] lemma SessionSet.at_sessionId (c : SessionSet) (n r) : (c.at n r).sessionId = r.sessionId := by
  unfold SessionSet.at; split <;> rfl
@[simp, grind =] lemma SessionSet.at_nonceHash (c : SessionSet) (n r) : (c.at n r).nonceHash = r.nonceHash := by
  unfold SessionSet.at; split <;> rfl
/-- Other sessions stay as they are. -/
@[grind =] lemma SessionSet.at_ne {c : SessionSet} {n r} (h : r.id ≠ n) : c.at n r = r := if_neg h

@[simp, grind =] lemma GrantSet.at_id (c : GrantSet) (d h g) : (c.at d h g).id = g.id := by
  unfold GrantSet.at; split <;> simp
@[simp, grind =] lemma GrantSet.at_domain (c : GrantSet) (d h g) : (c.at d h g).domain = g.domain := by
  unfold GrantSet.at; split <;> simp
@[simp, grind =] lemma GrantSet.at_subjectHash (c : GrantSet) (d h g) :
    (c.at d h g).subjectHash = g.subjectHash := by
  unfold GrantSet.at; split <;> simp
/-- Other grants stay as they are. -/
@[grind =] lemma GrantSet.at_ne {c : GrantSet} {d h g} (n : ¬ (g.domain = d ∧ g.subjectHash = h)) :
    c.at d h g = g := if_neg n

@[simp, grind =] lemma JobSet.at_id (c : JobSet) (n j) : (c.at n j).id = j.id := by
  unfold JobSet.at; split <;> simp
@[simp, grind =] lemma JobSet.at_jti (c : JobSet) (n j) : (c.at n j).jti = j.jti := by
  unfold JobSet.at; split <;> simp
/-- Other jobs stay as they are. -/
@[grind =] lemma JobSet.at_ne {c : JobSet} {n j} (h : j.id ≠ n) : c.at n j = j := if_neg h

end Keys

/-- An update of a session makes no new clash. -/
lemma SessionSet.at_clash (c : SessionSet) (id : Nat) (a b : SessionRow)
    (h : (c.at id a).Clash (c.at id b)) : a.Clash b := by
  simpa [SessionRow.Clash] using h

/-- Nor does one of a grant. -/
lemma GrantSet.at_clash (c : GrantSet) (d : String) (h : Bytes) (a b : GrantRow)
    (e : (c.at d h a).Clash (c.at d h b)) : a.Clash b := by
  simpa [GrantRow.Clash] using e

/-- Nor does one of a job. -/
lemma JobSet.at_clash (c : JobSet) (id : Nat) (a b : DeliveryJob)
    (h : (c.at id a).Clash (c.at id b)) : a.Clash b := by
  simpa [DeliveryJob.Clash] using h

namespace Db

/-- `UPDATE sessions SET … WHERE id = …`. -/
def updateSession (db : Db) (id : Nat) (c : SessionSet) : Db :=
  { db with sessions := db.sessions.update (c.at id) (c.at_clash id) }

/-- `UPDATE grants SET …` of the grant of a subject. -/
def updateGrant (db : Db) (domain : String) (subjectHash : Bytes) (c : GrantSet) : Db :=
  { db with grants := db.grants.update (c.at domain subjectHash) (c.at_clash domain subjectHash) }

/-- `UPDATE delivery_jobs SET … WHERE id = …`. -/
def updateJob (db : Db) (id : Nat) (c : JobSet) : Db :=
  { db with jobs := db.jobs.update (c.at id) (c.at_clash id) }

section Frame
variable (db : Db) (id : Nat) (d : String) (h : Bytes)

@[simp] lemma updateSession_replay (c) : (db.updateSession id c).replay = db.replay := rfl
@[simp] lemma updateSession_grants (c) : (db.updateSession id c).grants = db.grants := rfl
@[simp] lemma updateSession_jobs (c) : (db.updateSession id c).jobs = db.jobs := rfl
@[simp] lemma updateGrant_sessions (c) : (db.updateGrant d h c).sessions = db.sessions := rfl
@[simp] lemma updateGrant_replay (c) : (db.updateGrant d h c).replay = db.replay := rfl
@[simp] lemma updateGrant_jobs (c) : (db.updateGrant d h c).jobs = db.jobs := rfl
@[simp] lemma updateJob_sessions (c) : (db.updateJob id c).sessions = db.sessions := rfl
@[simp] lemma updateJob_replay (c) : (db.updateJob id c).replay = db.replay := rfl
@[simp] lemma updateJob_grants (c) : (db.updateJob id c).grants = db.grants := rfl

@[simp] lemma mem_updateSession {c r} :
    r ∈ (db.updateSession id c).sessions ↔ ∃ s ∈ db.sessions, c.at id s = r := by simp [updateSession]

@[simp] lemma mem_updateGrant {c g} :
    g ∈ (db.updateGrant d h c).grants ↔ ∃ f ∈ db.grants, c.at d h f = g := by simp [updateGrant]

@[simp] lemma mem_updateJob {c j} :
    j ∈ (db.updateJob id c).jobs ↔ ∃ i ∈ db.jobs, c.at id i = j := by simp [updateJob]

end Frame

end Db

namespace Entry

/-- What the entry writes. -/
def apply : Entry → Db → Db
  | .sessionRead _, db => db
  | .sessionInsert row, db => { db with sessions := db.sessions.insert row }
  | .sessionUpdate row set, db => db.updateSession row.id set
  | .replayInsert row, db => { db with replay := db.replay.insert row }
  | .grantRead _, db => db
  | .grantInsert row, db => { db with grants := db.grants.insert row }
  | .grantUpdate row set, db => db.updateGrant row.domain row.subjectHash set
  | .jobInsert row, db => { db with jobs := db.jobs.insert row }
  | .jobUpdate row set, db => db.updateJob row.id set

/-- What the entry observed. -/
def Holds : Entry → Db → Prop
  | .sessionRead row, db => row ∈ db.sessions
  | .sessionInsert row, db => ¬ db.sessions.Clashes row
  | .sessionUpdate row _, db => row ∈ db.sessions
  | .replayInsert row, db => ¬ db.replay.Clashes row
  | .grantRead row, db => row ∈ db.grants
  | .grantInsert row, db => ¬ db.grants.Clashes row
  | .grantUpdate row _, db => row ∈ db.grants
  | .jobInsert row, db => ¬ db.jobs.Clashes row
  | .jobUpdate row _, db => row ∈ db.jobs

/-- The cells the entry keeps locked. -/
def cells : Entry → Set Cell
  | .sessionRead row => {.session row.id}
  | .sessionInsert row =>
    {.session row.id, .sessionKey row.domain row.sessionId, .sessionNonce row.domain row.nonceHash}
  | .sessionUpdate row _ => {.session row.id}
  | .replayInsert row => {.replay row.key}
  | .grantRead row => {.grant row.domain row.subjectHash}
  | .grantInsert row => {.grant row.domain row.subjectHash, .grantId row.id}
  | .grantUpdate row _ => {.grant row.domain row.subjectHash}
  | .jobInsert row => {.job row.id, .jti row.jti}
  | .jobUpdate row _ => {.job row.id}

end Entry

/-- Two databases agree on a cell. -/
def Cell.Same : Cell → Db → Db → Prop
  | .session id, a, b => ∀ r : SessionRow, r.id = id → (r ∈ a.sessions ↔ r ∈ b.sessions)
  | .sessionKey d s, a, b =>
    (∃ r ∈ a.sessions, r.domain = d ∧ r.sessionId = s) ↔ ∃ r ∈ b.sessions, r.domain = d ∧ r.sessionId = s
  | .sessionNonce d h, a, b =>
    (∃ r ∈ a.sessions, r.domain = d ∧ r.nonceHash = h) ↔ ∃ r ∈ b.sessions, r.domain = d ∧ r.nonceHash = h
  | .replay k, a, b => (∃ r ∈ a.replay, r.key = k) ↔ ∃ r ∈ b.replay, r.key = k
  | .grant d h, a, b =>
    ∀ g : GrantRow, g.domain = d → g.subjectHash = h → (g ∈ a.grants ↔ g ∈ b.grants)
  | .grantId id, a, b => (∃ g ∈ a.grants, g.id = id) ↔ ∃ g ∈ b.grants, g.id = id
  | .job id, a, b => ∀ j : DeliveryJob, j.id = id → (j ∈ a.jobs ↔ j ∈ b.jobs)
  | .jti t, a, b => (∃ j ∈ a.jobs, j.jti = t) ↔ ∃ j ∈ b.jobs, j.jti = t

namespace Cell

/-- A database agrees with itself. -/
@[refl] lemma Same.refl (c : Cell) (db : Db) : c.Same db db := by
  cases c <;> simp [Same]

/-- Databases that agree with a third agree. -/
lemma Same.trans {c : Cell} {a b d : Db} (h : c.Same a b) (h' : c.Same b d) : c.Same a d := by
  cases c <;> simp only [Same] at h h' ⊢ <;> grind

end Cell

namespace Entry

/-- An observation depends on the locked cells only. -/
lemma Holds.congr {e : Entry} {a b : Db} (h : ∀ c ∈ e.cells, c.Same a b) (ho : e.Holds a) :
    e.Holds b := by
  cases e <;> simp only [cells, Set.mem_insert_iff, Set.mem_singleton_iff, forall_eq_or_imp,
    forall_eq, Cell.Same] at h <;>
    simp only [Holds, Table.Clashes, Table.mem_rows, SessionRow.Clash, ReplayRow.Clash,
      GrantRow.Clash, DeliveryJob.Clash] at ho ⊢ <;> grind

/-- A write leaves the cells it does not lock as they are. -/
lemma apply_frame {e : Entry} {c : Cell} (db : Db) (h : c ∉ e.cells) : c.Same db (e.apply db) := by
  cases e <;> cases c <;> simp only [cells, Set.mem_insert_iff, Set.mem_singleton_iff,
      Cell.grant.injEq, not_or] at h <;>
    simp only [Cell.Same, apply, Db.updateSession, Db.updateGrant, Db.updateJob, Table.mem_insert,
      Table.mem_update] <;> grind

/-- What an entry leaves in a cell depends on that cell and on the cells it locks. -/
lemma apply_congr {e : Entry} {c : Cell} {a b : Db} (h : ∀ d ∈ e.cells, d.Same a b)
    (hc : c.Same a b) : c.Same (e.apply a) (e.apply b) := by
  cases e <;> cases c <;> simp only [cells, Set.mem_insert_iff, Set.mem_singleton_iff,
      forall_eq_or_imp, forall_eq, Cell.Same] at h hc <;>
    simp only [Cell.Same, apply, Db.updateSession, Db.updateGrant, Db.updateJob, Table.mem_insert,
      Table.mem_update, Table.Clashes, SessionRow.Clash, ReplayRow.Clash, GrantRow.Clash,
      DeliveryJob.Clash, Table.mem_rows] <;> grind

end Entry

/-- The entries of the relay's transactions form a journal. -/
def journal : Journal Db Entry Cell where
  same := Cell.Same
  holds := Entry.Holds
  apply := Entry.apply
  cells := Entry.cells
  same_refl := Cell.Same.refl
  same_trans := Cell.Same.trans
  holds_congr := Entry.Holds.congr
  apply_frame := Entry.apply_frame
  apply_congr := Entry.apply_congr

end WebLoginRelay
