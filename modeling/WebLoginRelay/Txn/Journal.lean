import Mathlib

/-!
# Transaction journals under row locks

The part of strict two-phase locking that a proof about a database client needs, over an arbitrary
store. A transaction keeps a journal of entries; an entry records what the transaction observed
(`holds`), what it will write when it commits (`apply`) and the cells it keeps locked until then
(`cells`). Statements see the committed store with the transaction's own journal replayed on it.

`Valid s es` says that the journal `es` can be replayed on the store `s` with every observation as it
was made. The main fact, `Config.Inv.step`, is that in every interleaving of transactions whose locked
cells are disjoint the journal of each open transaction stays valid for the committed store, so that a
commit is the atomic replay of the journal on the store it commits to.
-/

namespace Txn

/-- Entries over a store, the cells they lock, and the laws that make locking them sound. -/
structure Journal (σ ε κ : Type) where
  /-- Two stores agree on a cell. -/
  same : κ → σ → σ → Prop
  holds : ε → σ → Prop
  apply : ε → σ → σ
  cells : ε → Set κ
  same_refl : ∀ c s, same c s s
  same_trans : ∀ {c s t u}, same c s t → same c t u → same c s u
  holds_congr : ∀ {e s t}, (∀ c ∈ cells e, same c s t) → holds e s → holds e t
  apply_frame : ∀ {e c} s, c ∉ cells e → same c s (apply e s)
  apply_congr : ∀ {e c s t}, (∀ d ∈ cells e, same d s t) → same c s t →
    same c (apply e s) (apply e t)

namespace Journal
variable {σ ε κ : Type} (J : Journal σ ε κ)

/-- Replay a journal on a store. -/
def replay (s : σ) (es : List ε) : σ := es.foldl (fun s e => J.apply e s) s

@[simp] lemma replay_nil (s : σ) : J.replay s [] = s := rfl

@[simp] lemma replay_cons (s : σ) (e : ε) (es : List ε) :
    J.replay s (e :: es) = J.replay (J.apply e s) es := rfl

@[simp] lemma replay_append (s : σ) (es fs : List ε) :
    J.replay s (es ++ fs) = J.replay (J.replay s es) fs := List.foldl_append

/-- Every entry of the journal observes what it recorded when the journal is replayed on `s`. -/
def Valid (s : σ) : List ε → Prop
  | [] => True
  | e :: es => J.holds e s ∧ Valid (J.apply e s) es

@[simp] lemma valid_nil (s : σ) : J.Valid s [] := trivial

@[simp] lemma valid_cons {s : σ} {e es} :
    J.Valid s (e :: es) ↔ J.holds e s ∧ J.Valid (J.apply e s) es := Iff.rfl

@[simp] lemma valid_append {s : σ} {es fs : List ε} :
    J.Valid s (es ++ fs) ↔ J.Valid s es ∧ J.Valid (J.replay s es) fs := by
  induction es generalizing s with
  | nil => simp
  | cons e es ih => simp [ih, and_assoc]

/-- The cells a journal keeps locked. -/
def locks (es : List ε) : Set κ := ⋃ e ∈ es, J.cells e

@[simp] lemma locks_nil : J.locks ([] : List ε) = ∅ := by simp [locks]

@[simp] lemma locks_cons (e : ε) (es : List ε) : J.locks (e :: es) = J.cells e ∪ J.locks es := by
  ext c; simp [locks]

@[simp] lemma locks_append (es fs : List ε) : J.locks (es ++ fs) = J.locks es ∪ J.locks fs := by
  induction es with
  | nil => simp
  | cons e es ih => simp [ih, Set.union_assoc]

/-- A journal leaves the cells it does not lock as they are. -/
lemma same_replay {es : List ε} {c : κ} (s : σ) (h : c ∉ J.locks es) : J.same c s (J.replay s es) := by
  induction es generalizing s with
  | nil => exact J.same_refl c s
  | cons e es ih =>
    rw [locks_cons, Set.mem_union, not_or] at h
    exact J.same_trans (J.apply_frame s h.1) (ih _ h.2)

/-- Validity only depends on the locked cells. -/
lemma Valid.congr {s t : σ} {es : List ε}
    (vl : J.Valid s es) (h : ∀ c ∈ J.locks es, J.same c s t) : J.Valid t es := by
  induction es generalizing s t with
  | nil => trivial
  | cons e es ih =>
    have he : ∀ c ∈ J.cells e, J.same c s t := fun c hc => h c (by simp [hc])
    refine ⟨J.holds_congr he vl.1, ih vl.2 fun c hc => ?_⟩
    exact J.apply_congr he (h c (by simp [hc]))

/-- Validity survives the replay of a journal that locks other cells. -/
lemma Valid.replay {s : σ} {es fs : List ε}
    (vl : J.Valid s es) (d : Disjoint (J.locks es) (J.locks fs)) : J.Valid (J.replay s fs) es :=
  vl.congr J fun _ hc => J.same_replay s (Set.disjoint_left.mp d hc)

end Journal

/-- A committed store and the journals of the open transactions. -/
structure Config (σ ε τ : Type) where
  store : σ
  journal : τ → List ε

namespace Config
variable {σ ε κ τ : Type} (J : Journal σ ε κ)

/-- What transaction `t` sees: the committed store with its own journal replayed. -/
def view (c : Config σ ε τ) (t : τ) : σ := J.replay c.store (c.journal t)

/-- No other transaction holds a cell of `es`. -/
def Free (c : Config σ ε τ) (t : τ) (es : List ε) : Prop :=
  ∀ u, u ≠ t → Disjoint (J.locks es) (J.locks (c.journal u))

/-- Every journal is valid for the committed store, and no cell is locked twice. -/
structure Inv (c : Config σ ε τ) : Prop where
  valid : ∀ t, J.Valid c.store (c.journal t)
  disjoint : ∀ t u, t ≠ u → Disjoint (J.locks (c.journal t)) (J.locks (c.journal u))

/-- Without open transactions the invariant holds. -/
lemma Inv.init (s : σ) : Inv J (⟨s, fun _ => []⟩ : Config σ ε τ) :=
  ⟨fun _ => trivial, fun _ _ _ => by simp⟩

section Steps
variable [DecidableEq τ]

/-- One step of a transaction: a statement, a commit or a rollback; or a statement that is a
transaction of its own. -/
inductive Step : Config σ ε τ → Config σ ε τ → Prop where
  | statement {c : Config σ ε τ} {t es} :
    J.Valid (c.view J t) es →
    c.Free J t es →
    Step c { c with journal := Function.update c.journal t (c.journal t ++ es) }
  | commit {c : Config σ ε τ} {t} :
    Step c ⟨c.view J t, Function.update c.journal t []⟩
  | rollback {c : Config σ ε τ} {t} :
    Step c { c with journal := Function.update c.journal t [] }
  | autocommit {c : Config σ ε τ} {es} :
    J.Valid c.store es →
    (∀ u, Disjoint (J.locks es) (J.locks (c.journal u))) →
    Step c { c with store := J.replay c.store es }

/-- Giving up a journal keeps the others disjoint. -/
lemma Inv.disjoint_clear {c : Config σ ε τ} (inv : Inv J c) (t : τ) (u v : τ) (ne : u ≠ v) :
    Disjoint (J.locks (Function.update c.journal t [] u))
      (J.locks (Function.update c.journal t [] v)) := by
  by_cases hu : u = t
  · simp [hu]
  · by_cases hv : v = t
    · simp [hv]
    · simpa [hu, hv] using inv.disjoint u v ne

/-- Every step of every transaction keeps the journals of all of them valid. -/
theorem Inv.step {c c' : Config σ ε τ} (inv : Inv J c) (st : Step J c c') : Inv J c' := by
  cases st with
  | @statement t es vl fr =>
    refine ⟨fun u => ?_, fun u v ne => ?_⟩
    · by_cases hu : u = t
      · subst hu
        simpa using ⟨inv.valid u, vl⟩
      · simpa [hu] using inv.valid u
    · by_cases hu : u = t
      · subst hu
        have hv : v ≠ u := Ne.symm ne
        simpa [hv, Set.disjoint_union_left] using ⟨inv.disjoint u v ne, fr v hv⟩
      · by_cases hv : v = t
        · subst hv
          simpa [hu, Set.disjoint_union_right] using ⟨inv.disjoint u v hu, (fr u hu).symm⟩
        · simpa [hu, hv] using inv.disjoint u v ne
  | @commit t =>
    refine ⟨fun u => ?_, inv.disjoint_clear J t⟩
    by_cases hu : u = t
    · simp [hu]
    · -- the committed journal locks none of the cells `u` relies on
      simpa [hu, view] using (inv.valid u).replay J (inv.disjoint u t hu)
  | @rollback t =>
    refine ⟨fun u => ?_, inv.disjoint_clear J t⟩
    by_cases hu : u = t
    · simp [hu]
    · simpa [hu] using inv.valid u
  | @autocommit es _ fr =>
    exact ⟨fun u => (inv.valid u).replay J (fr u).symm, inv.disjoint⟩

end Steps

end Config

end Txn
