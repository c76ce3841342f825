import WebLoginRelay.Txn.Shared

/-!
# The rate limit of registrations

`rate_limit_ok` of `src/http/routes.rs`. The statics `REG_WINDOW` and `REG_COUNT` are read and written with
relaxed atomic operations by every request.
-/

namespace WebLoginRelay
open Txn

/-- An operation on the clock or the statics. -/
inductive RateOp where
  /-- The seconds since the epoch. -/
  | now
  | loadWindow
  | storeWindow (seconds : UInt64)
  | storeCount (n : UInt64)
  | fetchAddCount (n : UInt64)
  deriving DecidableEq, Repr

/-- The response to an operation. -/
@[reducible] def RateOp.Resp : RateOp → Type
  | .now => UInt64
  | .loadWindow => UInt64
  | .storeWindow _ => Unit
  | .storeCount _ => Unit
  | .fetchAddCount _ => UInt64

/-- `rate_limit_ok`. -/
def rateLimitOk : Prog RateOp RateOp.Resp Bool := do
  let now ← Prog.ask RateOp.now
  let window ← Prog.ask RateOp.loadWindow
  if window ≠ now then
    Prog.ask (RateOp.storeWindow now)
    Prog.ask (RateOp.storeCount 1)
    return true
  else return (← Prog.ask (RateOp.fetchAddCount 1)) < 30

/-- The values that `REG_WINDOW` has had, and the value of `REG_COUNT`. -/
structure RateStatics where
  regWindow : List UInt64
  regCount : UInt64

/-- What an operation may answer. A relaxed load yields some value that the static has had; a read-modify-write
reads the value it replaces. -/
def RateStatics.Answers (m : RateStatics) : Event RateOp RateOp.Resp → RateStatics → Prop
  | ⟨.now, _⟩, m' => m' = m
  | ⟨.loadWindow, w⟩, m' => w ∈ m.regWindow ∧ m' = m
  | ⟨.storeWindow w, _⟩, m' => m' = { m with regWindow := m.regWindow ++ [w] }
  | ⟨.storeCount n, _⟩, m' => m' = { m with regCount := n }
  | ⟨.fetchAddCount n, old⟩, m' => old = m.regCount ∧ m' = { m with regCount := m.regCount + n }

/-- The runs of any number of requests at the same time. -/
abbrev RateRun := Shared.Run (⟨[0], 0⟩ : RateStatics) (· = rateLimitOk) RateStatics.Answers

end WebLoginRelay
