import WebLoginRelay.Crypto.Signatures
import WebLoginRelay.JsonText

/-!
# The canonical text of a flat object

What `jcs.rs` writes for an object of scalars: its fields in the order of the keys' bytes, each printed as
`serde_json` prints it.
-/

namespace WebLoginRelay
open Text

/-- `serde_json` prints a string with its short escapes and `\u00xx` for the other control characters. -/
def Crates.JsonEscapes (X : Crates) : Prop := ∀ s, X.jsonString s = String.ofList (JsonText.printString s)

namespace Jcs
variable {X : Crates} {fields : List (String × Value)}

/-- The fields in the order they are written. -/
def sortFields (fields : List (String × Value)) : List (String × Value) :=
  fields.insertionSort fun f g => asBytes f.1 ≤ asBytes g.1

/-- Sorting keeps the fields. -/
lemma sortFields_perm (fields : List (String × Value)) : (sortFields fields).Perm fields :=
  List.perm_insertionSort _ _

/-- Sorted fields are in the order of their bytes. -/
lemma sortFields_order (fields : List (String × Value)) :
    (sortFields fields).Pairwise fun f g => asBytes f.1 ≤ asBytes g.1 := by
  have total : Std.Total fun f g : String × Value => asBytes f.1 ≤ asBytes g.1 := ⟨fun _ _ => List.le_total _ _⟩
  have trans : IsTrans (String × Value) fun f g => asBytes f.1 ≤ asBytes g.1 := ⟨fun _ _ _ => List.le_trans⟩
  exact List.pairwise_insertionSort _ _

/-- An integer is written with its digits. -/
lemma toList_toString (n : Int) : (toString n).toList = JsonText.printInt n := by
  rw [Int.toString_eq_repr, Int.repr_eq_if, JsonText.printInt]
  by_cases neg : n < 0
  · have e : (-n).toNat = n.natAbs := by omega
    rw [if_neg (not_le.mpr neg), if_pos neg, e, String.toList_append, Nat.toList_repr]
    rfl
  · have e : n.toNat = n.natAbs := by omega
    rw [if_pos (not_lt.mp neg), if_neg neg, e, Nat.toList_repr]

/-- A scalar is written as it is printed. -/
lemma toList_writeValue (escapes : X.JsonEscapes) {v : Value} (scalar : v.isScalar) :
    (writeValue X v).toList = JsonText.print v := by
  cases v with
  | null => simp [writeValue, JsonText.print]
  | bool b => cases b <;> simp [writeValue, JsonText.print]
  | int n => rw [writeValue, toList_toString, JsonText.print]
  | str s => rw [writeValue, escapes, String.toList_ofList, JsonText.print]
  | arr items => cases scalar
  | obj fields => cases scalar

/-- The text of the fields, one by one. -/
lemma writeFields_eq (fields : List (String × Value)) :
    writeFields X fields = fields.map fun f => (f.1, X.jsonString f.1 ++ ":" ++ writeValue X f.2) := by
  induction fields with
  | nil => rw [writeFields, List.map_nil]
  | cons f fields ih => rw [writeFields, ih, List.map_cons]

/-- A field as it is printed. -/
def fieldText (f : String × Value) : List Char := JsonText.printString f.1 ++ ':' :: JsonText.print f.2

/-- An object of scalars is written with its fields in order. -/
lemma toList_writeObject (escapes : X.JsonEscapes) (flat : ∀ f ∈ fields, f.2.isScalar) :
    (writeValue X (.obj fields)).toList =
      '\x7b' :: [','].intercalate ((sortFields fields).map fieldText) ++ ['\x7d'] := by
  have sorted : sortKeys (writeFields X fields) =
      (sortFields fields).map fun f => (f.1, X.jsonString f.1 ++ ":" ++ writeValue X f.2) := by
    rw [sortKeys, sortFields, writeFields_eq]
    exact (List.map_insertionSort (fun f g : String × Value => asBytes f.1 ≤ asBytes g.1)
      (fun f g : String × String => asBytes f.1 ≤ asBytes g.1) _ fields fun _ _ _ _ => Iff.rfl).symm
  have each (f : String × Value) (hf : f ∈ sortFields fields) :
      (X.jsonString f.1 ++ ":" ++ writeValue X f.2).toList = fieldText f := by
    have scalar := flat f ((sortFields_perm fields).mem_iff.mp hf)
    rw [String.toList_append, String.toList_append, escapes, String.toList_ofList,
      toList_writeValue escapes scalar, List.append_assoc]
    rfl
  have members : ((sortKeys (writeFields X fields)).map Prod.snd).map String.toList =
      (sortFields fields).map fieldText := by
    rw [sorted, List.map_map, List.map_map]
    exact List.map_congr_left each
  rw [writeValue, String.toList_append, String.toList_append, String.toList_intercalate, members]
  rfl

end Jcs

end WebLoginRelay
