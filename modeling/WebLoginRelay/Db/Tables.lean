import WebLoginRelay.Error
import WebLoginRelay.Text.Utf8
import WebLoginRelay.Txn.Table

/-!
# Tables

The schema of `migrations/0001_init.sql` and the row types of `src/db`. The primary keys and unique
constraints of a table are its `Clash` relation, so a `Db` satisfies them by construction. The columns
`created_at` and `sessions.expires_at`, which no query reads, are left out; the five replay tables are
one table of keys tagged with the table they belong to.
-/

namespace WebLoginRelay
open Text Txn

/-- A `TIMESTAMPTZ`, in microseconds. -/
abbrev DateTime := Int

/-- The values of `sessions.state`. -/
inductive SessionState where
  | siteRegistered
  | challengeSent
  | consentReceived
  | refused
  | assertionDelivered
  | expired
  | cancelled
  | revoked
  deriving DecidableEq, Repr

/-- `SessionRow`. -/
structure SessionRow where
  id : Nat
  domain : String
  sessionId : String
  nonceHash : Bytes
  nonceCiphertext : Bytes
  iat : Int64
  exp : Int64
  requestedDisplayName : String
  siteDisplayName : String
  sitePublicKey : String
  qrSignature : String
  registrationSignature : String
  registrationHash : Bytes
  state : SessionState
  version : Nat
  requestEventId : Option String
  requestRoomCiphertext : Option Bytes
  requestSenderCiphertext : Option Bytes
  challengeHash : Option Bytes
  challengeExpiresAt : Option Int64
  consentEventId : Option String
  displayNameCiphertext : Option Bytes
  assertionJti : Option String
  assertionCiphertext : Option Bytes
  deriving DecidableEq, Repr

namespace SessionRow

/-- `SessionRow::is_terminal`. -/
def isTerminal (r : SessionRow) : Bool :=
  r.state ∈ [SessionState.refused, .assertionDelivered, .expired, .cancelled, .revoked]

/-- `PRIMARY KEY (id)`, `UNIQUE (domain, session_id)`, `UNIQUE (domain, nonce_hash)`. -/
def Clash (a b : SessionRow) : Prop :=
  a.id = b.id ∨ (a.domain = b.domain ∧ a.sessionId = b.sessionId)
    ∨ (a.domain = b.domain ∧ a.nonceHash = b.nonceHash)

instance : DecidableRel Clash := fun a b =>
  inferInstanceAs (Decidable (a.id = b.id ∨ (a.domain = b.domain ∧ a.sessionId = b.sessionId)
    ∨ (a.domain = b.domain ∧ a.nonceHash = b.nonceHash)))

/-- Sessions clash with each other. -/
lemma Clash.symm {a b : SessionRow} (h : Clash a b) : Clash b a :=
  h.imp Eq.symm (Or.imp (fun e => ⟨e.1.symm, e.2.symm⟩) fun e => ⟨e.1.symm, e.2.symm⟩)

end SessionRow

/-- The columns `cas_update` assigns: the state, and every other column that is not `NULL`. -/
structure SessionSet where
  state : SessionState
  requestEventId : Option String := none
  requestRoomCiphertext : Option Bytes := none
  requestSenderCiphertext : Option Bytes := none
  challengeHash : Option Bytes := none
  challengeExpiresAt : Option Int64 := none
  consentEventId : Option String := none
  displayNameCiphertext : Option Bytes := none
  assertionJti : Option String := none
  assertionCiphertext : Option Bytes := none
  deriving DecidableEq, Repr

/-- The `SET` clause of `cas_update`, with its `COALESCE`s. -/
def SessionSet.on (c : SessionSet) (r : SessionRow) : SessionRow :=
  { r with
    state := c.state
    version := r.version + 1
    requestEventId := c.requestEventId <|> r.requestEventId
    requestRoomCiphertext := c.requestRoomCiphertext <|> r.requestRoomCiphertext
    requestSenderCiphertext := c.requestSenderCiphertext <|> r.requestSenderCiphertext
    challengeHash := c.challengeHash <|> r.challengeHash
    challengeExpiresAt := c.challengeExpiresAt <|> r.challengeExpiresAt
    consentEventId := c.consentEventId <|> r.consentEventId
    displayNameCiphertext := c.displayNameCiphertext <|> r.displayNameCiphertext
    assertionJti := c.assertionJti <|> r.assertionJti
    assertionCiphertext := c.assertionCiphertext <|> r.assertionCiphertext }

/-- A key of one of the five replay tables. -/
inductive ReplayKey where
  | requestEventId (eventId : String)
  | challengeHash (hash : Bytes)
  | consentEventId (eventId : String)
  | assertionJti (jti : String)
  | revocationJti (jti : String)
  deriving DecidableEq, Repr

/-- A row of a replay table. -/
structure ReplayRow where
  key : ReplayKey
  expiresAt : DateTime
  deriving DecidableEq, Repr

namespace ReplayRow

/-- The key is the primary key of its table. -/
def Clash (a b : ReplayRow) : Prop := a.key = b.key

instance : DecidableRel Clash := fun a b => inferInstanceAs (Decidable (a.key = b.key))

end ReplayRow

/-- `GrantRow`. -/
structure GrantRow where
  id : Nat
  domain : String
  subjectHash : Bytes
  subjectCiphertext : Bytes
  matrixUserCiphertext : Bytes
  sessionId : String
  nonceHash : Bytes
  subjectKeyVersion : Int32
  revokedAt : Option DateTime
  deriving DecidableEq, Repr

namespace GrantRow

/-- `PRIMARY KEY (id)`, `UNIQUE (domain, subject_hash)`. -/
def Clash (a b : GrantRow) : Prop :=
  a.id = b.id ∨ (a.domain = b.domain ∧ a.subjectHash = b.subjectHash)

instance : DecidableRel Clash := fun a b =>
  inferInstanceAs (Decidable (a.id = b.id ∨ (a.domain = b.domain ∧ a.subjectHash = b.subjectHash)))

/-- Grants clash with each other. -/
lemma Clash.symm {a b : GrantRow} (h : Clash a b) : Clash b a :=
  h.imp Eq.symm fun e => ⟨e.1.symm, e.2.symm⟩

end GrantRow

/-- The two updates of a grant: `upsert_grant` on conflict, and `mark_revoked`. -/
inductive GrantSet where
  | relink (sessionId : String) (nonceHash : Bytes)
  | revoke (at_ : DateTime)
  deriving DecidableEq, Repr

/-- The `SET` clause of a grant update. -/
def GrantSet.on : GrantSet → GrantRow → GrantRow
  | .relink sessionId nonceHash, g => { g with sessionId, nonceHash, revokedAt := none }
  | .revoke t, g => { g with revokedAt := some t }

/-- The values of `delivery_jobs.kind`. -/
inductive JobKind where
  | assertion
  | revocation
  deriving DecidableEq, Repr

/-- The values of `delivery_jobs.status`. -/
inductive JobStatus where
  | pending
  | delivered
  | failed
  deriving DecidableEq, Repr

/-- `DeliveryJob`, with the column `next_retry_at`. -/
structure DeliveryJob where
  id : Nat
  kind : JobKind
  domain : String
  jti : String
  payloadCiphertext : Bytes
  idempotencyKey : String
  sessionId : String
  nonceHash : Bytes
  attempts : Nat
  nextRetryAt : Option DateTime
  status : JobStatus
  deriving DecidableEq, Repr

namespace DeliveryJob

/-- `PRIMARY KEY (id)`, `UNIQUE (jti)`. -/
def Clash (a b : DeliveryJob) : Prop := a.id = b.id ∨ a.jti = b.jti

instance : DecidableRel Clash := fun a b =>
  inferInstanceAs (Decidable (a.id = b.id ∨ a.jti = b.jti))

/-- Jobs clash with each other. -/
lemma Clash.symm {a b : DeliveryJob} (h : Clash a b) : Clash b a := h.imp Eq.symm Eq.symm

end DeliveryJob

/-- The updates of a job: `claim_due`, and `mark_delivered` or `mark_failed`. -/
inductive JobSet where
  | claim (retryAt : DateTime)
  | mark (status : JobStatus)
  deriving DecidableEq, Repr

/-- The `SET` clause of a job update. -/
def JobSet.on : JobSet → DeliveryJob → DeliveryJob
  | .claim retryAt, j => { j with attempts := j.attempts + 1, nextRetryAt := some retryAt }
  | .mark status, j => { j with status }

/-- The database. -/
structure Db where
  sessions : Table SessionRow SessionRow.Clash
  replay : Table ReplayRow ReplayRow.Clash
  grants : Table GrantRow GrantRow.Clash
  jobs : Table DeliveryJob DeliveryJob.Clash

/-- The database after the migration. -/
def Db.empty : Db := ⟨.empty, .empty, .empty, .empty⟩

end WebLoginRelay
