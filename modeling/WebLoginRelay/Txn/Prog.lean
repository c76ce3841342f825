import Mathlib

/-!
# Programs with effects

A program is a tree of requests to its environment: at each node it issues an operation `o : S` and
continues with the response, of type `R o`. Code written in the monad `Prog S R` keeps its control
flow and leaves open who answers: a scheduler may interleave many programs, and a test may answer
from a list.

`wp` is the weakest precondition of such a program for an observer who keeps a local state. The
parameter `poss` says which responses are possible in a local state and which action they show; the
observer's assertion `A` has to hold at every action the program can take, and the postcondition when
it returns.
-/

namespace Txn

/-- A tree of requests `o : S`, each answered by an `R o`. -/
inductive Prog (S : Type) (R : S → Type) (α : Type) : Type where
  | ret (a : α) : Prog S R α
  | req (o : S) (k : R o → Prog S R α) : Prog S R α

namespace Prog
variable {S : Type} {R : S → Type} {α β γ : Type}

/-- Sequencing grafts the continuation onto the leaves. -/
def bind : Prog S R α → (α → Prog S R β) → Prog S R β
  | ret a, f => f a
  | req o k, f => req o fun r => (k r).bind f

instance : Monad (Prog S R) where
  pure := ret
  bind := bind

/-- Issue one request and return its response. -/
def ask (o : S) : Prog S R (R o) := req o ret

@[simp] lemma ret_eq_pure (a : α) : (ret a : Prog S R α) = pure a := rfl

@[simp] lemma pure_bind (a : α) (f : α → Prog S R β) : (pure a >>= f : Prog S R β) = f a := rfl

@[simp] lemma req_bind (o : S) (k : R o → Prog S R α) (f : α → Prog S R β) :
    (req o k >>= f) = req o fun r => k r >>= f := rfl

/-- A result at the end adds nothing. -/
lemma bind_pure (x : Prog S R α) : (x >>= pure) = x := by
  induction x with
  | ret a => rfl
  | req o k ih => exact congrArg (req o) (funext ih)

/-- Sequences can be regrouped. -/
lemma bind_assoc (x : Prog S R α) (f : α → Prog S R β) (g : β → Prog S R γ) :
    (x >>= f >>= g) = (x >>= fun a => f a >>= g) := by
  induction x with
  | ret a => rfl
  | req o k ih => exact congrArg (req o) (funext ih)

instance : LawfulMonad (Prog S R) :=
  LawfulMonad.mk' _ (fun x => bind_pure x) (fun _ _ => rfl) bind_assoc

/-- The program issues the request for some of the responses it may get. -/
def MayAsk (o : S) : Prog S R α → Prop
  | ret _ => False
  | req o' k => o' = o ∨ ∃ r, (k r).MayAsk o

section WP
variable {L C : Type} (poss : L → (o : S) → R o → C → Prop) (did : L → C → L) (A : L → C → Prop)

/-- From `l`, every action the program can take satisfies `A`, and it returns in a state with `Q`. -/
def wp : Prog S R α → (α → L → Prop) → L → Prop
  | ret a, Q, l => Q a l
  | req o k, Q, l => ∀ r c, poss l o r c → A l c ∧ wp (k r) Q (did l c)

@[simp] lemma wp_pure {a : α} {Q : α → L → Prop} {l : L} :
    wp poss did A (pure a : Prog S R α) Q l ↔ Q a l := Iff.rfl

@[simp] lemma wp_req {o : S} {k : R o → Prog S R α} {Q l} :
    wp poss did A (req o k) Q l ↔ ∀ r c, poss l o r c → A l c ∧ wp poss did A (k r) Q (did l c) :=
  Iff.rfl

@[simp] lemma wp_ask {o : S} {Q : R o → L → Prop} {l : L} :
    wp poss did A (ask o) Q l ↔ ∀ r c, poss l o r c → A l c ∧ Q r (did l c) := Iff.rfl

/-- The weakest precondition of a sequence. -/
@[simp] lemma wp_bind {x : Prog S R α} {f : α → Prog S R β} {Q l} :
    wp poss did A (x >>= f) Q l ↔ wp poss did A x (fun a => wp poss did A (f a) Q) l := by
  induction x generalizing l with
  | ret a => exact Iff.rfl
  | req o k ih => simp only [req_bind, wp_req, ih]

/-- A weaker postcondition is easier to reach. -/
lemma wp_mono {x : Prog S R α} {Q Q' : α → L → Prop} {l : L}
    (h : ∀ a l, Q a l → Q' a l) (w : wp poss did A x Q l) : wp poss did A x Q' l := by
  induction x generalizing l with
  | ret a => exact h a l w
  | req o k ih => exact fun r c p => ⟨(w r c p).1, ih r (w r c p).2⟩

/-- What every action keeps is kept by the program. -/
lemma wp_stable {x : Prog S R α} {Q : α → L → Prop} {I : L → Prop} {l : L}
    (keep : ∀ l c, I l → I (did l c)) (w : wp poss did A x Q l) (h : I l) :
    wp poss did A x (fun a l => Q a l ∧ I l) l := by
  induction x generalizing l with
  | ret a => exact ⟨w, h⟩
  | req o k ih => exact fun r c p => ⟨(w r c p).1, ih r (w r c p).2 (keep l c h)⟩

end WP

end Prog

end Txn
