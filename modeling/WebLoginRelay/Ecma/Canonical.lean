import WebLoginRelay.Text.Utf8

/-!
# Canonical objects

RFC 8785 for flat objects: string literals as `JSON.stringify` prints them, keys in the order of their
UTF-16 code units, and no whitespace. The values are of any type, with a relation that says how one is
printed.
-/

namespace Ecma
open Text

/-- The UTF-16 code units of a character. -/
def utf16Char (c : Char) : List ℕ :=
  let n := c.toNat
  if n < 0x10000 then [n] else [0xD800 + (n - 0x10000) / 0x400, 0xDC00 + (n - 0x10000) % 0x400]

/-- The UTF-16 code units of a string. -/
def utf16 (s : String) : List ℕ := s.toList.flatMap utf16Char

/-- `UnicodeEscape` of ECMA-262: four lower-case hexadecimal digits. -/
def unicodeEscape (n : ℕ) : List Char :=
  let digits := Nat.toDigits 16 n
  '\\' :: 'u' :: List.replicate (4 - digits.length) '0' ++ digits

/-- `QuoteJSONString` of ECMA-262 on a character. -/
def quoteChar (c : Char) : List Char :=
  match c.toNat with
  | 0x08 => ['\\', 'b']
  | 0x09 => ['\\', 't']
  | 0x0A => ['\\', 'n']
  | 0x0C => ['\\', 'f']
  | 0x0D => ['\\', 'r']
  | 0x22 => ['\\', '"']
  | 0x5C => ['\\', '\\']
  | n => if n < 0x20 then unicodeEscape n else [c]

/-- `QuoteJSONString` of ECMA-262. -/
def quote (s : String) : List Char := '"' :: s.toList.flatMap quoteChar ++ ['"']

/-- The members of an object, separated by commas. -/
def braces (members : List (List Char)) : List Char :=
  '\x7b' :: [','].intercalate members ++ ['\x7d']

section Object
variable {α : Type} (Scalar : α → List Char → Prop)

/-- The text is the canonical one of an object with these fields. -/
def CanonicalObject (fields : List (String × α)) (text : List Char) : Prop :=
  ∃ sorted : List (String × α), sorted.Perm fields ∧ sorted.Pairwise (fun f g => utf16 f.1 < utf16 g.1) ∧
    ∃ members, List.Forall₂ (fun f m => ∃ v, Scalar f.2 v ∧ m = quote f.1 ++ ':' :: v) sorted members ∧
      text = braces members

variable {Scalar} {fields sorted : List (String × α)} {text : List Char}

/-- There is one order of the fields. -/
lemma sorted_unique {sorted' : List (String × α)} (perm : sorted'.Perm sorted)
    (order : sorted.Pairwise fun f g => utf16 f.1 < utf16 g.1)
    (order' : sorted'.Pairwise fun f g => utf16 f.1 < utf16 g.1) : sorted' = sorted :=
  perm.eq_of_pairwise (fun _ _ _ _ lt gt => absurd gt (List.lt_asymm lt)) order' order

/-- An object whose values are printed in one way has one canonical text. -/
lemma canonicalObject_iff (perm : sorted.Perm fields)
    (order : sorted.Pairwise fun f g => utf16 f.1 < utf16 g.1) {print : α → List Char}
    (prints : ∀ f ∈ fields, ∀ v, Scalar f.2 v ↔ v = print f.2) :
    CanonicalObject Scalar fields text ↔
      text = braces (sorted.map fun f => quote f.1 ++ ':' :: print f.2) := by
  have member (f) (hf : f ∈ sorted) (m : List Char) :
      (∃ v, Scalar f.2 v ∧ m = quote f.1 ++ ':' :: v) ↔ m = quote f.1 ++ ':' :: print f.2 := by
    have only := prints f (perm.mem_iff.mp hf)
    exact ⟨fun ⟨v, h, e⟩ => (only v).mp h ▸ e, fun e => ⟨_, (only _).mpr rfl, e⟩⟩
  refine ⟨fun ⟨sorted', perm', order', members, each, e⟩ => ?_, fun e => ?_⟩
  · obtain rfl := sorted_unique (perm'.trans perm.symm) order order'
    have texts : members = sorted'.map fun f => quote f.1 ++ ':' :: print f.2 := by
      clear perm order perm' order' e
      induction each with
      | nil => rfl
      | @cons f m fs ms h _ ih =>
        rw [List.map_cons, (member f (List.mem_cons_self ..) m).mp h,
          ih fun g hg => member g (List.mem_cons_of_mem _ hg)]
    rw [e, texts]
  · refine ⟨sorted, perm, order, _, ?_, e⟩
    rw [List.forall₂_map_right_iff, List.forall₂_same]
    exact fun f hf => (member f hf _).mpr rfl

end Object

/-! ## ASCII -/

/-- A string of ASCII characters. -/
def IsAscii (s : String) : Prop := ∀ c ∈ s.toList, c.toNat < 128

instance (s : String) : Decidable (IsAscii s) := List.decidableBAll _ _

/-- The code units of ASCII text are its bytes. -/
lemma utf16_of_ascii {s : String} (h : IsAscii s) : utf16 s = (asBytes s).map UInt8.toNat := by
  have bytes : asBytes s = s.toList.flatMap String.utf8EncodeChar := by
    rw [← asBytes_ofList, String.ofList_toList]
  rw [utf16, bytes]
  unfold IsAscii at h
  generalize s.toList = cs at h
  induction cs with
  | nil => rfl
  | cons c cs ih =>
    have ascii := h c (List.mem_cons_self ..)
    have unit : utf16Char c = [c.toNat] := if_pos (by omega)
    have byte : String.utf8EncodeChar c = [UInt8.ofNat c.toNat] := by
      have small : c.val.toNat ≤ 127 := by
        have : c.val.toNat = c.toNat := rfl
        omega
      unfold String.utf8EncodeChar
      exact if_pos small
    have back : (UInt8.ofNat c.toNat).toNat = c.toNat := by
      rw [UInt8.toNat_ofNat']
      omega
    rw [List.flatMap_cons, List.flatMap_cons, List.map_append, unit, byte, List.map_singleton, back,
      ih fun d hd => h d (List.mem_cons_of_mem _ hd)]

/-- So the orders of the bytes and of the code units agree. -/
lemma utf16_of_bytes_le {s t : String} (hs : IsAscii s) (ht : IsAscii t) (le : asBytes s ≤ asBytes t) :
    utf16 s < utf16 t ∨ utf16 s = utf16 t := by
  rw [utf16_of_ascii hs, utf16_of_ascii ht]
  exact List.le_iff_lt_or_eq.mp (List.map_le (fun _ _ lt => UInt8.lt_iff_toNat_lt.mp lt) le)

/-- ASCII text is determined by its code units. -/
lemma utf16_inj {s t : String} (hs : IsAscii s) (ht : IsAscii t) (e : utf16 s = utf16 t) : s = t := by
  rw [utf16_of_ascii hs, utf16_of_ascii ht] at e
  exact asBytes_inj (List.map_injective_iff.mpr (fun _ _ => UInt8.toNat.inj) e)

end Ecma
