import WebLoginRelay.Crypto.Primitives
import WebLoginRelay.Db.Query
import WebLoginRelay.Txn.Prog

/-!
# The relay's effects

The operations through which the relay's code touches the world: the clock, the random number
generator, the HTTP client for sites, the Matrix outbox and the database. A computation of type
`Relay α` is a program over these operations that may fail with a `RelayError`; nothing here says how
an operation is answered.

`Transaction` of `tokio_postgres` is a guard: it rolls back when it goes out of scope without having
been committed. `inTx` ends every transaction with `drop`, which does nothing once the transaction has
been committed or rolled back.
-/

namespace WebLoginRelay
open Text Txn

/-- The method of an HTTP request. -/
inductive HttpMethod where
  | get
  | post
  deriving DecidableEq, Repr

/-- The arguments of `SsrfSiteClient::request`. -/
structure SiteRequest where
  domain : String
  path : String
  method : HttpMethod
  extraHeaders : List (String × String)
  body : Bytes
  maxBody : Nat
  deriving DecidableEq, Repr

/-- `SiteResponse`. -/
structure SiteResponse where
  status : UInt16
  body : Bytes
  deriving DecidableEq, Repr

/-- One operation of the relay on its environment. -/
inductive Op where
  /-- `Clock::now_ms`. -/
  | now
  /-- `RngCore::fill_bytes`. -/
  | fillBytes (n : Nat)
  /-- `SsrfSiteClient::request`. -/
  | request (r : SiteRequest)
  /-- `MessageSink::send_notice`. -/
  | sendNotice (roomId body : String)
  /-- A pooled connection and `db::begin`. -/
  | begin
  | exec (q : Query)
  | commit
  | rollback
  /-- The transaction goes out of scope. -/
  | drop
  | auto (a : Auto)
  deriving DecidableEq, Repr

/-- The response to an operation. `begin` yields the time `NOW()` denotes in the transaction. -/
@[reducible] def Op.Resp : Op → Type
  | .now => Int64
  | .fillBytes n => { b : Bytes // b.length = n }
  | .request _ => Except RelayError SiteResponse
  | .sendNotice .. => Except RelayError Unit
  | .begin => Except DbError DateTime
  | .exec q => Except DbError q.Resp
  | .commit => Except DbError Unit
  | .rollback => Except DbError Unit
  | .drop => Unit
  | .auto a => Except DbError a.Resp

/-- Computations of the relay. -/
abbrev Relay (α : Type) := ExceptT RelayError (Prog Op Op.Resp) α

/-- `AppState`, as far as the modelled code reads it. -/
structure AppState where
  crates : Crates
  atRest : Bytes
  lookupPepper : Bytes
  subjectSecret : Bytes
  subjectKeyVersion : Int32
  signingKey : Bytes
  signingKid : String
  relayUserId : String

namespace Relay
variable {α : Type}

/-- A result without effects. -/
def liftResult (r : Except RelayError α) : Relay α := ExceptT.mk (pure r)

instance : MonadLift (Except RelayError) Relay := ⟨liftResult⟩

/-- One operation. -/
def ask (o : Op) : Relay o.Resp := ExceptT.lift (Prog.ask o)

/-- `state.clock.now_ms()`. -/
def nowMs : Relay Int64 := ask .now

/-- `rand::thread_rng().fill_bytes`. -/
def fillBytes (n : Nat) : Relay { b : Bytes // b.length = n } := ask (.fillBytes n)

/-- `SsrfSiteClient::request`. -/
def request (r : SiteRequest) : Relay SiteResponse := do liftResult (← ask (.request r))

/-- `state.outbox.send_notice`. -/
def sendNotice (roomId body : String) : Relay Unit := do liftResult (← ask (.sendNotice roomId body))

/-- `.map_err(|_| RelayError::problem(ProblemCode::InternalError))`. -/
def orInternal : Except DbError α → Except RelayError α
  | .ok a => .ok a
  | .error _ => fail .internalError

/-- `map_unique` and `conflict_or_internal`. -/
def orConflict (conflict : ProblemCode) : Except DbError α → Except RelayError α
  | .ok a => .ok a
  | .error .uniqueViolation => fail conflict
  | .error .other => fail .internalError

/-- A statement whose errors are all internal. -/
def exec (q : Query) : Relay q.Resp := do liftResult (orInternal (← ask (.exec q)))

/-- A statement whose unique violations are a conflict. -/
def execUnique (conflict : ProblemCode) (q : Query) : Relay q.Resp := do
  liftResult (orConflict conflict (← ask (.exec q)))

/-- `tx.commit()`. -/
def commit : Relay Unit := do liftResult (orInternal (← ask .commit))

/-- `tx.rollback()`. -/
def rollback : Relay Unit := do liftResult (orInternal (← ask .rollback))

/-- A statement on a pooled connection. -/
def auto (a : Auto) : Relay a.Resp := do liftResult (orInternal (← ask (.auto a)))

/-- Run `body` with a transaction in scope. -/
def inTx (body : Relay α) : Relay α := ExceptT.mk do
  let begun : Except DbError DateTime ← Prog.ask Op.begin
  match begun with
  | .error _ => pure (fail .internalError)
  | .ok _ =>
    let r ← body.run
    let _ : Unit ← Prog.ask Op.drop
    pure r

end Relay

namespace AppState
variable (st : AppState)

/-- `state.at_rest.encrypt`: it draws its own nonce. -/
def encrypt (plaintext : Bytes) : Relay Bytes := do
  let nonce ← Relay.fillBytes nonceLen
  Relay.liftResult (WebLoginRelay.encrypt st.crates st.atRest nonce.val plaintext)

/-- `state.at_rest.decrypt`. -/
def decrypt (blob : Bytes) : Except RelayError Bytes := WebLoginRelay.decrypt st.crates st.atRest blob

/-- `keyed_hash` under the lookup pepper. -/
def lookupHash (data : String) : Bytes := keyedHash st.crates st.lookupPepper (asBytes data)

/-- `String::from_utf8(state.at_rest.decrypt(..)?)`, where either error is internal. -/
def decryptText (blob : Bytes) : Except RelayError String := do
  match fromUtf8 (← st.decrypt blob) with
  | some s => pure s
  | none => fail .internalError

end AppState

end WebLoginRelay
