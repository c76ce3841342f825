import WebLoginRelay.Txn.Feed

/-!
# Programs over a shared memory

Any number of programs run at the same time over one memory. An operation takes effect at one moment, and what
it may answer depends on the memory; between two operations of a program any others may take effect. A run is
shown by its operations, in the order in which they take effect.

There are two ways to reason about a run. What a program does whatever it is answered, it does in every run
(`Run.within`); and a value of the memory has been written by an operation of the run (`Run.written`).
-/

namespace Txn

variable {S : Type} {R : S → Type} {M α β : Type}

/-- An operation that was performed, and its response. -/
structure Event (S : Type) (R : S → Type) where
  op : S
  resp : R op

/-- A program that runs: what it has still to do, and what it has done. -/
structure Thread (S : Type) (R : S → Type) (α : Type) where
  rest : Prog S R α
  past : List (Event S R)

/-- The memory and the programs that run over it. -/
structure Shared (M S : Type) (R : S → Type) (α : Type) where
  memory : M
  threads : Nat → Option (Thread S R α)

/-- Every element of the list is in `P` with those after it. -/
def Followed {α : Type} (P : α → List α → Prop) (l : List α) : Prop := ∀ e post, e :: post <:+ l → P e post

namespace Followed
variable {α : Type} {P P' : α → List α → Prop} {e : α} {l l' : List α}

/-- Nothing is followed by nothing. -/
lemma nil : Followed P [] := by
  intro e post h
  nomatch List.suffix_nil.mp h

/-- One more event in front. -/
lemma cons (h : P e l) (hl : Followed P l) : Followed P (e :: l) := by
  intro e' post hs
  obtain same | hs := List.suffix_cons_iff.mp hs
  · obtain ⟨rfl, rfl⟩ := List.cons.inj same
    exact h
  · exact hl e' post hs

/-- Two parts, the first of which sees the second. -/
lemma append (h : ∀ e post, P e post → P' e (post ++ l')) (hl : Followed P l) (hl' : Followed P' l') :
    Followed P' (l ++ l') := by
  induction l with
  | nil => exact hl'
  | cons e l ih =>
    apply cons (h e l (hl e l (List.suffix_refl _)))
    apply ih
    intro e' post hs
    exact hl e' post (hs.trans (List.suffix_cons e l))

end Followed

namespace Shared

/-- An operation of a run, with what its program had done before and has to do then. -/
structure Label (S : Type) (R : S → Type) (α : Type) where
  thread : Nat
  past : List (Event S R)
  event : Event S R
  rest : Prog S R α

/-- A program is replaced. -/
def put (C : Shared M S R α) (t : Nat) (thread : Thread S R α) : Nat → Option (Thread S R α) :=
  Function.update C.threads t (some thread)

/-- The runs of the programs `calls`, from the memory `init`. -/
inductive Run (init : M) (calls : Prog S R α → Prop) (sem : M → Event S R → M → Prop) :
    List (Label S R α) → Shared M S R α → Prop where
  | init : Run init calls sem [] ⟨init, fun _ => none⟩
  | spawn {ls C t p} : Run init calls sem ls C → C.threads t = none → calls p →
    Run init calls sem ls { C with threads := C.put t ⟨p, []⟩ }
  | act {ls C t o k past r m} : Run init calls sem ls C → C.threads t = some ⟨.req o k, past⟩ →
    sem C.memory ⟨o, r⟩ m →
    Run init calls sem (ls ++ [⟨t, past, ⟨o, r⟩, k r⟩]) ⟨m, C.put t ⟨k r, past ++ [⟨o, r⟩]⟩⟩

/-- Whatever is answered, every operation of the program satisfies `A`, and it returns with `Q`. -/
def Alone (A : List (Event S R) → Event S R → Prop) (p : Prog S R α) (Q : α → List (Event S R) → Prop)
    (past : List (Event S R)) : Prop :=
  Prog.wp (fun _ o r e => e = ⟨o, r⟩) (fun past e => past ++ [e]) A p Q past

section Alone
variable {A : List (Event S R) → Event S R → Prop} {past : List (Event S R)}

/-- The second part starts where the first one has ended. -/
lemma alone_bind {x : Prog S R α} {f : α → Prog S R β} {Q : β → List (Event S R) → Prop} :
    Alone A (x >>= f) Q past ↔ Alone A x (fun a => Alone A (f a) Q) past := Prog.wp_bind _ _ _

/-- Less may be said of the end. -/
lemma alone_mono {x : Prog S R α} {Q Q' : α → List (Event S R) → Prop} (h : ∀ a past, Q a past → Q' a past)
    (w : Alone A x Q past) : Alone A x Q' past := Prog.wp_mono _ _ _ h w

/-- In a program that may fail only a result that succeeds goes on. -/
lemma alone_run_bind {ε : Type} {x : ExceptT ε (Prog S R) α} {f : α → ExceptT ε (Prog S R) β}
    {Q : Except ε β → List (Event S R) → Prop}
    (h : Alone A x.run (fun r past => match r with
      | .ok a => Alone A (f a).run Q past
      | .error e => Q (.error e) past) past) : Alone A (x >>= f).run Q past := by
  rw [ExceptT.run_bind, alone_bind]
  apply alone_mono _ h
  rintro (e | a) past h
  · exact h
  · exact h

end Alone

variable {init : M} {calls : Prog S R α → Prop} {sem : M → Event S R → M → Prop} {ls : List (Label S R α)}
  {C : Shared M S R α}

namespace Run

/-- What a program does alone it does in every run. -/
theorem within {A : List (Event S R) → Event S R → Prop} {Q : α → List (Event S R) → Prop}
    (start : ∀ p, calls p → Alone A p Q []) (r : Run init calls sem ls C) {t : Nat} {thread : Thread S R α}
    (h : C.threads t = some thread) : Alone A thread.rest Q thread.past := by
  induction r generalizing t thread with
  | init => nomatch h
  | @spawn ls C u p r free call ih =>
    by_cases hu : t = u
    · subst hu
      simp only [put, Function.update_self, Option.some.injEq] at h
      subst h
      exact start p call
    · simp only [put, Function.update_of_ne hu] at h
      exact ih h
  | @act ls C u o k past x m r task s ih =>
    by_cases hu : t = u
    · subst hu
      simp only [put, Function.update_self, Option.some.injEq] at h
      subst h
      exact (ih task x _ rfl).2
    · simp only [put, Function.update_of_ne hu] at h
      exact ih h

/-- A program that has returned has the postcondition. -/
lemma returned {A : List (Event S R) → Event S R → Prop} {Q : α → List (Event S R) → Prop}
    (start : ∀ p, calls p → Alone A p Q []) (r : Run init calls sem ls C) {t : Nat} {a : α}
    {past : List (Event S R)} (h : C.threads t = some ⟨.ret a, past⟩) : Q a past := r.within start h

/-- The state before an operation. -/
lemma before {pre post : List (Label S R α)} {lb : Label S R α} (r : Run init calls sem ls C)
    (e : ls = pre ++ lb :: post) : ∃ C₁ k m, Run init calls sem pre C₁ ∧
      C₁.threads lb.thread = some ⟨.req lb.event.op k, lb.past⟩ ∧ sem C₁.memory lb.event m ∧
      lb.rest = k lb.event.resp := by
  induction r generalizing post with
  | init => nomatch List.append_eq_nil_iff.mp e.symm
  | spawn r free call ih => exact ih e
  | @act ls C u o k past x m r task s ih =>
    obtain rfl | ⟨post, last, rfl⟩ := List.eq_nil_or_concat' post
    · obtain ⟨rfl, same⟩ := List.append_inj' e rfl
      cases same
      exact ⟨C, k, m, r, task, s, rfl⟩
    · rw [← List.cons_append, ← List.append_assoc] at e
      exact ih (List.append_inj' e rfl).1

/-- Every operation is one its program does alone. -/
lemma permitted {A : List (Event S R) → Event S R → Prop} {Q : α → List (Event S R) → Prop}
    (start : ∀ p, calls p → Alone A p Q []) (r : Run init calls sem ls C) {lb : Label S R α} (h : lb ∈ ls) :
    A lb.past lb.event := by
  obtain ⟨pre, post, e⟩ := List.append_of_mem h
  obtain ⟨C₁, k, m, r₁, task, -, -⟩ := r.before e
  exact (r₁.within start task lb.event.resp lb.event rfl).1

/-- What a program has done is among the operations of the run. -/
lemma done (r : Run init calls sem ls C) {t : Nat} {thread : Thread S R α} (h : C.threads t = some thread)
    {pre post : List (Event S R)} {e : Event S R} (he : thread.past = pre ++ e :: post) :
    ∃ lb ∈ ls, lb.thread = t ∧ lb.past = pre ∧ lb.event = e := by
  induction r generalizing t thread post with
  | init => nomatch h
  | @spawn ls C u p r free call ih =>
    by_cases hu : t = u
    · subst hu
      simp only [put, Function.update_self, Option.some.injEq] at h
      subst h
      nomatch List.append_eq_nil_iff.mp he.symm
    · simp only [put, Function.update_of_ne hu] at h
      exact ih h he
  | @act ls C u o k past x m r task s ih =>
    have old {thread : Thread S R α} {t : Nat} {post : List (Event S R)} (h : C.threads t = some thread)
        (he : thread.past = pre ++ e :: post) :
        ∃ lb ∈ ls ++ [⟨u, past, ⟨o, x⟩, k x⟩], lb.thread = t ∧ lb.past = pre ∧ lb.event = e := by
      obtain ⟨lb, mem, rest⟩ := ih h he
      exact ⟨lb, List.mem_append_left _ mem, rest⟩
    by_cases hu : t = u
    · subst hu
      simp only [put, Function.update_self, Option.some.injEq] at h
      subst h
      obtain rfl | ⟨post, last, rfl⟩ := List.eq_nil_or_concat' post
      · obtain ⟨rfl, same⟩ := List.append_inj' he rfl
        cases same
        exact ⟨_, List.mem_append_right _ (List.mem_singleton_self _), rfl, rfl, rfl⟩
      · rw [← List.cons_append, ← List.append_assoc] at he
        exact old task (List.append_inj' he rfl).1
    · simp only [put, Function.update_of_ne hu] at h
      exact old h he

/-- A value of the memory was there at first, or was written by an operation. -/
theorem written {vals : M → List β} {writes : Event S R → Option β}
    (effect : ∀ m e m', sem m e m' → vals m' = vals m ++ (writes e).toList) (r : Run init calls sem ls C) {v : β}
    (h : v ∈ vals C.memory) : v ∈ vals init ∨ ∃ lb ∈ ls, writes lb.event = some v := by
  induction r with
  | init => exact .inl h
  | spawn r free call ih => exact ih h
  | @act ls C u o k past x m r task s ih =>
    change v ∈ vals m at h
    rw [effect _ _ _ s] at h
    obtain h | h := List.mem_append.mp h
    · obtain first | ⟨lb, mem, w⟩ := ih h
      · exact .inl first
      · exact .inr ⟨lb, List.mem_append_left _ mem, w⟩
    · exact .inr ⟨_, List.mem_append_right _ (List.mem_singleton_self _), Option.mem_toList.mp h⟩

end Run

/-- The operations are answered one after the other. -/
def Serves (sem : M → Event S R → M → Prop) : M → List (Event S R) → M → Prop
  | m, [], m' => m' = m
  | m, e :: es, m' => ∃ m₁, sem m e m₁ ∧ Serves sem m₁ es m'

/-- A program can begin. -/
lemma Run.begins (r : Run init calls sem ls C) {t : Nat} {p : Prog S R α} (free : C.threads t = none)
    (call : calls p) : ∃ C', Run init calls sem ls C' ∧ C'.memory = C.memory ∧
      C'.threads = Function.update C.threads t (some ⟨p, []⟩) := ⟨_, r.spawn free call, rfl, rfl⟩

/-- A program can be answered while the others wait. -/
theorem Run.serve [DecidableEq S] (r : Run init calls sem ls C) {t : Nat} {p q : Prog S R α}
    {past es : List (Event S R)} {m : M} (h : C.threads t = some ⟨p, past⟩)
    (fed : p.feed Event.op Event.resp es = (q, [])) (served : Serves sem C.memory es m) :
    ∃ ls' C', Run init calls sem (ls ++ ls') C' ∧ (∀ lb ∈ ls', lb.thread = t) ∧ C'.memory = m ∧
      C'.threads = Function.update C.threads t (some ⟨q, past ++ es⟩) := by
  induction es generalizing ls C p past with
  | nil =>
    rw [Prog.feed_nil] at fed
    obtain ⟨rfl, -⟩ := Prod.mk.inj fed
    refine ⟨[], C, (List.append_nil ls).symm ▸ r, fun lb h => absurd h List.not_mem_nil, served.symm, ?_⟩
    rw [List.append_nil, ← h, Function.update_eq_self]
  | cons e es ih =>
    cases p with
    | ret a =>
      rw [Prog.feed_ret] at fed
      nomatch (Prod.mk.inj fed).2
    | req o k =>
      by_cases same : e.op = o
      · subst same
        rw [Prog.feed_cons] at fed
        obtain ⟨m₁, s, served⟩ := served
        obtain ⟨ls', C', r', own, memory, threads⟩ := ih (r.act h s) (Function.update_self ..) fed served
        rw [List.append_assoc] at r'
        refine ⟨_, C', r', ?_, memory, ?_⟩
        · intro lb mem
          obtain mem | mem := List.mem_append.mp mem
          · rw [List.mem_singleton.mp mem]
          · exact own lb mem
        rw [threads, put, Function.update_idem, List.append_assoc]
        rfl
      · rw [Prog.feed_other same] at fed
        nomatch (Prod.mk.inj fed).2

/-- Answer the operations of a program from a memory. -/
def handle (answer : (o : S) → M → R o × M) : Prog S R α → M → α × M
  | .ret a, m => (a, m)
  | .req o k, m => handle answer (k (answer o m).1) (answer o m).2

/-- The operations of a program that is answered from a memory. -/
def handled (answer : (o : S) → M → R o × M) : Prog S R α → M → List (Event S R)
  | .ret _, _ => []
  | .req o k, m => ⟨o, (answer o m).1⟩ :: handled answer (k (answer o m).1) (answer o m).2

/-- Answers that the memory may give are those of a program that runs while the others wait. -/
lemma handle_serves [DecidableEq S] {answer : (o : S) → M → R o × M} {I : M → Prop}
    (sound : ∀ o m, I m → sem m ⟨o, (answer o m).1⟩ (answer o m).2 ∧ I (answer o m).2) (p : Prog S R α) {m : M}
    (h : I m) : p.feed Event.op Event.resp (handled answer p m) = (.ret (handle answer p m).1, []) ∧
      Serves sem m (handled answer p m) (handle answer p m).2 ∧ I (handle answer p m).2 := by
  induction p generalizing m with
  | ret a => exact ⟨Prog.feed_ret a [], rfl, h⟩
  | req o k ih =>
    obtain ⟨s, h'⟩ := sound o m h
    obtain ⟨fed, served, keeps⟩ := ih (answer o m).1 h'
    refine ⟨?_, ⟨_, s, served⟩, keeps⟩
    rw [handled, Prog.feed, dif_pos rfl]
    exact fed

end Shared

end Txn
