import WebLoginRelay.Txn.Prog

/-!
# Programs and what they have done

A program that has been answered from a list of events has become another one. `feed` computes it, so that
what a program has still to do is a function of what it has done, and the events of a sequence can be told
apart into those of its first part and those of its second.
-/

namespace Txn.Prog
variable {S : Type} {R : S → Type} {α β E : Type}

/-- Every request of the program, whatever the answers before it, is such. -/
def Asks (P : S → Prop) : Prog S R α → Prop
  | ret _ => True
  | req o k => P o ∧ ∀ r, Asks P (k r)

/-- A result asks nothing. -/
lemma asks_pure {P : S → Prop} (a : α) : (pure a : Prog S R α).Asks P := trivial

/-- A sequence asks what its parts ask. -/
lemma Asks.bind {P : S → Prop} {x : Prog S R α} {f : α → Prog S R β} (h : x.Asks P) (h' : ∀ a, (f a).Asks P) :
    (x >>= f).Asks P := by
  induction x with
  | ret a => exact h' a
  | req o k ih => exact ⟨h.1, fun r => ih r (h.2 r)⟩

variable [DecidableEq S]

section
variable (op : E → S) (resp : ∀ e, R (op e))

/-- Answer the requests of a program from a list of events: what is left of both. It stops before an event of
another request. -/
def feed : Prog S R α → List E → Prog S R α × List E
  | ret a, es => (ret a, es)
  | req o k, [] => (req o k, [])
  | req o k, e :: es => if h : op e = o then feed (k (h ▸ resp e)) es else (req o k, e :: es)

end

variable {op : E → S} {resp : ∀ e, R (op e)}

@[simp] lemma feed_ret (a : α) (es : List E) : feed op resp (ret a : Prog S R α) es = (ret a, es) := by
  cases es <;> rfl

@[simp] lemma feed_pure (a : α) (es : List E) : feed op resp (pure a : Prog S R α) es = (pure a, es) :=
  feed_ret a es

@[simp] lemma feed_nil (p : Prog S R α) : feed op resp p [] = (p, []) := by
  cases p <;> rfl

/-- A request takes the next event if it is its own. -/
lemma feed_cons (e : E) (es : List E) (k : R (op e) → Prog S R α) :
    feed op resp (req (op e) k) (e :: es) = feed op resp (k (resp e)) es := by
  rw [feed, dif_pos rfl]

/-- It waits if the event belongs to another request. -/
lemma feed_other {o : S} {e : E} (ne : op e ≠ o) (es : List E) (k : R o → Prog S R α) :
    feed op resp (req o k) (e :: es) = (req o k, e :: es) := by
  rw [feed, dif_neg ne]

/-- The events of a sequence are those of its first part, and then those of its second. -/
lemma feed_bind (x : Prog S R α) (f : α → Prog S R β) (es : List E) :
    feed op resp (x >>= f) es =
      match feed op resp x es with
      | (ret a, es) => feed op resp (f a) es
      | (req o k, es) => (req o fun r => k r >>= f, es) := by
  induction x generalizing es with
  | ret a => rw [feed_ret]; rfl
  | req o k ih =>
    rw [req_bind]
    cases es with
    | nil => rfl
    | cons e es =>
      by_cases h : op e = o
      · subst h
        rw [feed_cons, feed_cons, ih]
      · rw [feed_other h, feed_other h]

/-- When the first part is over, the rest of the events go to the second. -/
lemma feed_bind_ret {x : Prog S R α} {f : α → Prog S R β} {es rest : List E} {a : α}
    (h : feed op resp x es = (ret a, rest)) : feed op resp (x >>= f) es = feed op resp (f a) rest := by
  rw [feed_bind, h]

/-- A sequence waits as long as its first part does. -/
lemma feed_bind_req {x : Prog S R α} {f : α → Prog S R β} {es rest : List E} {o : S} {k : R o → Prog S R α}
    (h : feed op resp x es = (req o k, rest)) :
    feed op resp (x >>= f) es = (req o fun r => k r >>= f, rest) := by
  rw [feed_bind, h]

/-- More events go to what is left of the program. -/
lemma feed_append (p : Prog S R α) (es es' : List E) :
    feed op resp p (es ++ es') =
      match feed op resp p es with
      | (ret a, rest) => (ret a, rest ++ es')
      | (req o k, []) => feed op resp (req o k) es'
      | (req o k, e :: rest) => (req o k, e :: rest ++ es') := by
  induction p generalizing es with
  | ret a => rw [feed_ret, feed_ret]
  | req o k ih =>
    cases es with
    | nil => rfl
    | cons e es =>
      rw [List.cons_append]
      by_cases h : op e = o
      · subst h
        rw [feed_cons, feed_cons, ih]
      · rw [feed_other h, feed_other h]
        rfl

/-- What is left of the events is their end. -/
lemma feed_suffix (p : Prog S R α) (es : List E) : (feed op resp p es).2 <:+ es := by
  induction p generalizing es with
  | ret a =>
    rw [feed_ret]
  | req o k ih =>
    cases es with
    | nil => exact List.suffix_rfl
    | cons e es =>
      by_cases h : op e = o
      · subst h
        rw [feed_cons]
        exact (ih _ es).trans (List.suffix_cons e es)
      · rw [feed_other h]

/-- One more event. -/
lemma feed_snoc {p : Prog S R α} {es : List E} {e : E} {k : R (op e) → Prog S R α}
    (h : feed op resp p es = (req (op e) k, [])) : feed op resp p (es ++ [e]) = (k (resp e), []) := by
  rw [feed_append, h]
  exact (feed_cons e [] k).trans (feed_nil _)

/-- What a program has left when it has returned, it has not looked at. -/
lemma feed_done {p : Prog S R α} {es rest : List E} {a : α} (h : feed op resp p es = (ret a, rest)) (es' : List E) :
    feed op resp p (es ++ es') = (ret a, rest ++ es') := by
  rw [feed_append, h]

/-- What is left of a program asks nothing else. -/
lemma Asks.feed {P : S → Prop} {p : Prog S R α} (h : p.Asks P) (es : List E) : (feed op resp p es).1.Asks P := by
  induction p generalizing es with
  | ret a => rw [feed_ret]; exact h
  | req o k ih =>
    cases es with
    | nil => exact h
    | cons e es =>
      by_cases eq : op e = o
      · subst eq
        rw [feed_cons]
        exact ih _ (h.2 _) es
      · rw [feed_other eq]
        exact h

end Txn.Prog
