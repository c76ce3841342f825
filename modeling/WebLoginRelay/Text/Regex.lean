import Mathlib

/-!
# Anchored regular expressions

The fragment of the `regex` crate's syntax that anchored validators are written in, with a matcher by
derivatives. `isMatch` decides whether the whole text is in the language of the expression
(`isMatch_iff`), which is what a pattern of the form `^…$` asks.
-/

namespace Text

/-- Regular expressions over characters. -/
inductive Regex where
  | never
  | eps
  | cls (p : Char → Bool)
  | alt (r s : Regex)
  | seq (r s : Regex)
  | star (r : Regex)

namespace Regex

/-- The empty text matches. -/
def nullable : Regex → Bool
  | never => false
  | eps => true
  | cls _ => false
  | alt r s => r.nullable || s.nullable
  | seq r s => r.nullable && s.nullable
  | star _ => true

/-- `alt`, dropping a branch that never matches. -/
def alt' : Regex → Regex → Regex
  | never, s => s
  | r, never => r
  | r, s => alt r s

/-- `seq`, dropping what is decided already. -/
def seq' : Regex → Regex → Regex
  | never, _ => never
  | eps, s => s
  | r, s => seq r s

/-- What is left to match after `c`. -/
def deriv (c : Char) : Regex → Regex
  | never => never
  | eps => never
  | cls p => if p c then eps else never
  | alt r s => alt' (r.deriv c) (s.deriv c)
  | seq r s =>
    if r.nullable then alt' (seq' (r.deriv c) s) (s.deriv c) else seq' (r.deriv c) s
  | star r => seq' (r.deriv c) (star r)

/-- `r?`. -/
def opt (r : Regex) : Regex := alt eps r

/-- `r{0,n}`. -/
def upTo (r : Regex) : Nat → Regex
  | 0 => eps
  | n + 1 => opt (seq r (r.upTo n))

/-- `r{n}`. -/
def exactly (r : Regex) : Nat → Regex
  | 0 => eps
  | n + 1 => seq r (r.exactly n)

/-- `r{lo,hi}`. -/
def between (r : Regex) (lo hi : Nat) : Regex := seq (r.exactly lo) (r.upTo (hi - lo))

/-- `r+`. -/
def plus (r : Regex) : Regex := seq r (star r)

/-- `Regex::is_match` of the anchored pattern `^r$`. -/
def isMatch (r : Regex) (text : String) : Bool := (text.toList.foldl (fun r c => r.deriv c) r).nullable

/-! ## The matcher decides the language -/

/-- The texts an expression describes. -/
def Lang : Regex → List Char → Prop
  | never, _ => False
  | eps, cs => cs = []
  | cls p, cs => ∃ c, cs = [c] ∧ p c
  | alt r s, cs => r.Lang cs ∨ s.Lang cs
  | seq r s, cs => ∃ u v, cs = u ++ v ∧ r.Lang u ∧ s.Lang v
  | star r, cs => ∃ us : List (List Char), cs = us.flatten ∧ ∀ u ∈ us, r.Lang u

variable {r s : Regex} {p : Char → Bool} {c : Char} {cs : List Char}

/-- The shortened alternative means the same. -/
lemma lang_alt' : (alt' r s).Lang cs ↔ r.Lang cs ∨ s.Lang cs := by
  cases r with
  | never => simp [alt', Lang]
  | _ => cases s <;> simp [alt', Lang]

/-- The shortened sequence means the same. -/
lemma lang_seq' : (seq' r s).Lang cs ↔ (seq r s).Lang cs := by
  cases r with
  | never => simp [seq', Lang]
  | eps =>
    simp only [seq', Lang]
    exact ⟨fun h => ⟨[], cs, rfl, rfl, h⟩, by rintro ⟨_, v, rfl, rfl, h⟩; exact h⟩
  | _ => rfl

/-- An expression is nullable if it describes the empty text. -/
lemma nullable_iff : r.nullable ↔ r.Lang [] := by
  induction r with
  | never => simp [nullable, Lang]
  | eps => simp [nullable, Lang]
  | cls p => simp [nullable, Lang]
  | alt r s ihr ihs => simp [nullable, Lang, ihr, ihs]
  | seq r s ihr ihs =>
    simp only [nullable, Bool.and_eq_true, ihr, ihs, Lang, List.nil_eq, List.append_eq_nil_iff]
    refine ⟨fun ⟨hr, hs⟩ => ⟨[], [], ⟨rfl, rfl⟩, hr, hs⟩, ?_⟩
    rintro ⟨u, v, ⟨rfl, rfl⟩, hr, hs⟩
    exact ⟨hr, hs⟩
  | star r _ => exact ⟨fun _ => ⟨[], rfl, fun u hu => nomatch hu⟩, fun _ => rfl⟩

/-- A sequence starts in its first part, or the first part is empty. -/
lemma lang_seq_cons : (seq r s).Lang (c :: cs) ↔
    (∃ u v, cs = u ++ v ∧ r.Lang (c :: u) ∧ s.Lang v) ∨ (r.Lang [] ∧ s.Lang (c :: cs)) := by
  constructor
  · rintro ⟨u, v, e, hr, hs⟩
    cases u with
    | nil =>
      obtain rfl : c :: cs = v := e
      exact .inr ⟨hr, hs⟩
    | cons d u =>
      obtain ⟨rfl, rfl⟩ := List.cons.inj e
      exact .inl ⟨u, v, rfl, hr, hs⟩
  · rintro (⟨u, v, rfl, hr, hs⟩ | ⟨hr, hs⟩)
    · exact ⟨c :: u, v, rfl, hr, hs⟩
    · exact ⟨[], c :: cs, rfl, hr, hs⟩

/-- The first part of a repetition that is not empty takes the first character. -/
lemma lang_star_cons : (star r).Lang (c :: cs) ↔
    ∃ u v, cs = u ++ v ∧ r.Lang (c :: u) ∧ (star r).Lang v := by
  constructor
  · rintro ⟨us, e, all⟩
    induction us with
    | nil => nomatch e
    | cons u us ih =>
      cases u with
      | nil => exact ih e fun u hu => all u (by simp [hu])
      | cons d u =>
        obtain ⟨rfl, rfl⟩ := List.cons.inj e
        exact ⟨u, us.flatten, rfl, all _ (by simp), us, rfl, fun u hu => all u (by simp [hu])⟩
  · rintro ⟨u, _, rfl, hu, us, rfl, all⟩
    refine ⟨(c :: u) :: us, rfl, fun v hv => ?_⟩
    obtain rfl | hv := List.mem_cons.mp hv
    · exact hu
    · exact all v hv

/-- The derivative describes what may follow the character. -/
lemma lang_deriv : (r.deriv c).Lang cs ↔ r.Lang (c :: cs) := by
  induction r generalizing cs with
  | never => simp [deriv, Lang]
  | eps => simp [deriv, Lang]
  | cls p =>
    simp only [deriv, Lang, List.cons.injEq]
    split
    · rename_i h
      exact ⟨fun e => ⟨c, ⟨rfl, e⟩, h⟩, fun ⟨_, ⟨_, e⟩, _⟩ => e⟩
    · rename_i h
      exact ⟨False.elim, fun ⟨_, ⟨e, _⟩, h'⟩ => absurd (e ▸ h') h⟩
  | alt r s ihr ihs => simp only [deriv, lang_alt', ihr, ihs, Lang]
  | seq r s ihr ihs =>
    have first : (seq' (r.deriv c) s).Lang cs ↔ ∃ u v, cs = u ++ v ∧ r.Lang (c :: u) ∧ s.Lang v := by
      simp only [lang_seq', Lang, ihr]
    rw [lang_seq_cons, deriv]
    split
    · rename_i h
      have empty : r.Lang [] := nullable_iff.mp h
      simp only [lang_alt', first, ihs, empty, true_and]
    · rename_i h
      have empty : ¬ r.Lang [] := fun e => h (nullable_iff.mpr e)
      simp only [first, empty, false_and, or_false]
  | star r ih =>
    rw [lang_star_cons, deriv, lang_seq']
    simp only [Lang, ih]

/-- The matcher decides the language. -/
theorem isMatch_iff {text : String} : r.isMatch text ↔ r.Lang text.toList := by
  unfold isMatch
  generalize text.toList = cs
  induction cs generalizing r with
  | nil => exact nullable_iff
  | cons c cs ih => rw [List.foldl_cons, ih, lang_deriv]

/-- A repetition is a text of one part or more. -/
lemma lang_plus : (plus r).Lang cs ↔ ∃ us : List (List Char), us ≠ [] ∧ cs = us.flatten ∧ ∀ u ∈ us, r.Lang u := by
  constructor
  · rintro ⟨u, _, rfl, hu, us, rfl, all⟩
    exact ⟨u :: us, List.cons_ne_nil u us, rfl, List.forall_mem_cons.mpr ⟨hu, all⟩⟩
  · rintro ⟨us, ne, rfl, all⟩
    cases us with
    | nil => exact absurd rfl ne
    | cons u us =>
      obtain ⟨hu, all⟩ := List.forall_mem_cons.mp all
      exact ⟨u, us.flatten, rfl, hu, us, rfl, all⟩

/-! ## Repetitions of a class -/

@[simp] lemma lang_cls_seq_nil : ¬ (seq (cls p) r).Lang [] := by
  rintro ⟨_, v, e, ⟨c, rfl, _⟩, _⟩
  nomatch e

@[simp] lemma lang_cls_seq_cons : (seq (cls p) r).Lang (c :: cs) ↔ p c ∧ r.Lang cs := by
  constructor
  · rintro ⟨_, v, e, ⟨d, rfl, h⟩, hr⟩
    obtain ⟨rfl, rfl⟩ := List.cons.inj e
    exact ⟨h, hr⟩
  · rintro ⟨h, hr⟩
    exact ⟨[c], cs, rfl, ⟨c, rfl, h⟩, hr⟩

/-- Texts of a class of exactly this length. -/
lemma lang_exactly {n : Nat} : ((cls p).exactly n).Lang cs ↔ cs.length = n ∧ ∀ c ∈ cs, p c := by
  induction n generalizing cs with
  | zero =>
    simp only [exactly, Lang, List.length_eq_zero_iff]
    exact ⟨fun e => ⟨e, fun c hc => by simp [e] at hc⟩, And.left⟩
  | succ n ih => cases cs <;> simp [exactly, ih, and_left_comm]

/-- Texts of a class of at most this length. -/
lemma lang_upTo {n : Nat} : ((cls p).upTo n).Lang cs ↔ cs.length ≤ n ∧ ∀ c ∈ cs, p c := by
  induction n generalizing cs with
  | zero =>
    simp only [upTo, Lang, Nat.le_zero, List.length_eq_zero_iff]
    exact ⟨fun e => ⟨e, fun c hc => by simp [e] at hc⟩, And.left⟩
  | succ n ih => cases cs <;> simp [upTo, opt, Lang.eq_2, Lang.eq_4, ih, and_left_comm]

/-- Texts of a class with a length between two numbers. -/
lemma lang_between {lo hi : Nat} (le : lo ≤ hi) :
    ((cls p).between lo hi).Lang cs ↔ lo ≤ cs.length ∧ cs.length ≤ hi ∧ ∀ c ∈ cs, p c := by
  simp only [between, Lang, lang_exactly, lang_upTo]
  constructor
  · rintro ⟨u, v, rfl, ⟨hu, pu⟩, hv, pv⟩
    refine ⟨by simp; omega, by simp; omega, fun c hc => ?_⟩
    obtain hc | hc := List.mem_append.mp hc
    · exact pu c hc
    · exact pv c hc
  · rintro ⟨h, h', all⟩
    refine ⟨cs.take lo, cs.drop lo, (List.take_append_drop lo cs).symm, ⟨List.length_take_of_le h, ?_⟩, ?_, ?_⟩
    · exact fun c hc => all c (List.mem_of_mem_take hc)
    · simp only [List.length_drop]
      omega
    · exact fun c hc => all c (List.mem_of_mem_drop hc)

end Regex

end Text
