import Mathlib

/-!
# Tables with uniqueness constraints

A table is a list of rows no two of which clash, where `clash` is the disjunction of the primary key
and of the unique constraints of the table. The constraint is a field of the structure, so a table
that breaks it cannot be built: `insert` appends a row only when it clashes with no row present, and
`update` rewrites rows by a function that creates no new clash.
-/

namespace Txn

/-- A list of rows of which no two clash. -/
structure Table (α : Type) (clash : α → α → Prop) where
  rows : List α
  unique : rows.Pairwise fun a b => ¬ clash a b

namespace Table
variable {α : Type} {clash : α → α → Prop}

instance : Membership α (Table α clash) := ⟨fun t a => a ∈ t.rows⟩

@[simp] lemma mem_rows {t : Table α clash} {a} : a ∈ t.rows ↔ a ∈ t := Iff.rfl

/-- The table without rows. -/
def empty : Table α clash := ⟨[], List.Pairwise.nil⟩

@[simp] lemma not_mem_empty {a : α} : a ∉ (empty : Table α clash) := List.not_mem_nil

/-- A table is its rows. -/
lemma ext_rows {t t' : Table α clash} (h : t.rows = t'.rows) : t = t' := by
  cases t
  cases t'
  cases h
  rfl

/-- Rows of one table that clash are the same row. -/
lemma eq_of_clash {t : Table α clash} (symm : ∀ a b, clash a b → clash b a) {a b}
    (ha : a ∈ t) (hb : b ∈ t) (c : clash a b) : a = b := by
  by_contra ne
  have sym : Std.Symm fun a b : α => ¬ clash a b := ⟨fun x y h c => h (symm y x c)⟩
  exact t.unique.forall ha hb ne c

section Insert
variable [DecidableRel clash]

/-- `a` clashes with a row of the table. -/
def Clashes (t : Table α clash) (a : α) : Prop := ∃ b ∈ t.rows, clash b a

instance (t : Table α clash) (a : α) : Decidable (t.Clashes a) :=
  inferInstanceAs (Decidable (∃ b ∈ t.rows, clash b a))

/-- Append a row, unless it clashes. -/
def insert (t : Table α clash) (a : α) : Table α clash :=
  if h : t.Clashes a then t
  else
    { rows := t.rows ++ [a]
      unique := by
        refine List.pairwise_append.mpr ⟨t.unique, List.pairwise_singleton _ _, ?_⟩
        intro b hb c hc e
        cases List.mem_singleton.mp hc
        exact h ⟨b, hb, e⟩ }

/-- The rows after an insert. -/
@[simp] lemma mem_insert {t : Table α clash} {a b} :
    b ∈ t.insert a ↔ b ∈ t ∨ (b = a ∧ ¬ t.Clashes a) := by
  unfold insert
  split
  case isTrue h => simp [h]
  case isFalse h => simp [← mem_rows, h]

/-- An insert does not undo a clash. -/
lemma Clashes.insert {t : Table α clash} {a b} (h : t.Clashes a) : (t.insert b).Clashes a := by
  obtain ⟨c, hc, e⟩ := h
  exact ⟨c, mem_insert.mpr (.inl hc), e⟩

/-- A clash after an insert is an old one, or with the inserted row. -/
lemma Clashes.of_insert {t : Table α clash} {a b} (h : (t.insert b).Clashes a) :
    t.Clashes a ∨ clash b a := by
  obtain ⟨c, hc, e⟩ := h
  obtain hc | ⟨rfl, _⟩ := mem_insert.mp hc
  · exact .inl ⟨c, hc, e⟩
  · exact .inr e

/-- An insert that clashes with nothing appends the row. -/
lemma rows_insert {t : Table α clash} {a} (h : ¬ t.Clashes a) :
    (t.insert a).rows = t.rows ++ [a] := by
  simp [insert, h]

end Insert

section Update

/-- Rewrite every row by a function that creates no new clash. -/
def update (t : Table α clash) (f : α → α) (hf : ∀ a b, clash (f a) (f b) → clash a b) :
    Table α clash where
  rows := t.rows.map f
  unique := List.pairwise_map.mpr (t.unique.imp fun h c => h (hf _ _ c))

/-- The rows after an update. -/
@[simp] lemma mem_update {t : Table α clash} {f hf} {b : α} :
    b ∈ t.update f hf ↔ ∃ a ∈ t, f a = b := by
  simp [← mem_rows, update]

@[simp] lemma rows_update {t : Table α clash} {f hf} : (t.update f hf).rows = t.rows.map f := rfl

end Update

end Table

end Txn
