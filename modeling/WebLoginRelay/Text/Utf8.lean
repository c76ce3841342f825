import Mathlib

/-!
# Strings as UTF-8

The string functions of the Rust standard library the relay uses. A Rust `str` is a UTF-8 byte
sequence: lengths, prefixes and slices are taken on the bytes.
-/

namespace Text

/-- A `Vec<u8>` or a `&[u8]`. -/
abbrev Bytes := List UInt8

/-- `str::as_bytes`. -/
def asBytes (s : String) : Bytes := s.toByteArray.data.toList

/-- `String::from_utf8`. -/
def fromUtf8 (b : Bytes) : Option String := String.fromUTF8? ⟨b.toArray⟩

/-- `str::len`, in bytes. -/
def len (s : String) : Nat := s.utf8ByteSize

/-- `str::starts_with`. -/
def startsWith (s pat : String) : Bool := (asBytes pat).isPrefixOf (asBytes s)

/-- `str::ends_with`. -/
def endsWith (s pat : String) : Bool := (asBytes pat).isSuffixOf (asBytes s)

/-- `str::contains`. -/
def contains (s pat : String) : Bool := decide (asBytes pat <:+: asBytes s)

/-- `str::strip_prefix`: the slice after a prefix. -/
def stripPrefix (s pat : String) : Option String :=
  if startsWith s pat then fromUtf8 ((asBytes s).drop (asBytes pat).length) else none

/-- `char::is_whitespace`: the Unicode property `White_Space`. -/
def isWhitespace (c : Char) : Bool :=
  c.val ∈ ([0x09, 0x0A, 0x0B, 0x0C, 0x0D, 0x20, 0x85, 0xA0, 0x1680, 0x2000, 0x2001, 0x2002, 0x2003,
    0x2004, 0x2005, 0x2006, 0x2007, 0x2008, 0x2009, 0x200A, 0x2028, 0x2029, 0x202F, 0x205F,
    0x3000] : List UInt32)

/-- `s.trim().is_empty()`. -/
def isBlank (s : String) : Bool := s.toList.all isWhitespace

/-- A string is determined by its bytes. -/
lemma asBytes_inj {s t : String} (h : asBytes s = asBytes t) : s = t := by
  apply String.toByteArray_inj.mp
  have e : s.toByteArray.data = t.toByteArray.data := Array.toList_inj.mp h
  exact congrArg ByteArray.mk e

/-- The bytes of a string are UTF-8. -/
@[simp] lemma fromUtf8_asBytes (s : String) : fromUtf8 (asBytes s) = some s := by
  have e : (⟨(asBytes s).toArray⟩ : ByteArray) = s.toByteArray := by simp [asBytes]
  simp only [fromUtf8, e, String.fromUTF8?, dif_pos s.isValidUTF8]
  rfl

/-- The bytes of a list of characters. -/
lemma asBytes_ofList (cs : List Char) :
    asBytes (String.ofList cs) = cs.flatMap String.utf8EncodeChar := by
  simp [asBytes, List.utf8Encode]

/-- The length of a text in Rust is the number of its bytes. -/
lemma len_eq_length (s : String) : len s = (asBytes s).length := rfl

/-- A character takes at most four bytes. -/
lemma length_asBytes_ofList (cs : List Char) : (asBytes (String.ofList cs)).length ≤ 4 * cs.length := by
  rw [asBytes_ofList]
  induction cs with
  | nil => simp
  | cons c cs ih =>
    have := c.utf8Size_le_four
    simp only [List.flatMap_cons, List.length_append, String.length_utf8EncodeChar, List.length_cons]
    omega

/-- A character takes at least one byte. -/
lemma length_le_len (s : String) : s.length ≤ len s := by
  have e : s = String.ofList s.toList := String.ofList_toList.symm
  rw [len_eq_length]
  conv_rhs => rw [e]
  rw [asBytes_ofList, ← String.length_toList]
  induction s.toList with
  | nil => simp
  | cons c cs ih =>
    have := c.utf8Size_pos
    simp only [List.flatMap_cons, List.length_append, String.length_utf8EncodeChar, List.length_cons]
    omega

/-- An ASCII character is one byte, and every byte of another one is above ASCII. -/
lemma utf8EncodeChar_cases (c : Char) :
    (c.toNat < 128 ∧ String.utf8EncodeChar c = [UInt8.ofNat c.toNat]) ∨
      (128 ≤ c.toNat ∧ ∀ b ∈ String.utf8EncodeChar c, 128 ≤ b.toNat) := by
  have v : c.val.toNat = c.toNat := rfl
  unfold String.utf8EncodeChar
  simp only [v]
  split
  · rename_i le
    exact .inl ⟨by omega, rfl⟩
  · rename_i high
    refine .inr ⟨by omega, ?_⟩
    split
    · simp only [List.forall_mem_cons, UInt8.toNat_ofNat']
      exact ⟨by omega, by omega, nofun⟩
    · split
      · simp only [List.forall_mem_cons, UInt8.toNat_ofNat']
        exact ⟨by omega, by omega, by omega, nofun⟩
      · simp only [List.forall_mem_cons, UInt8.toNat_ofNat']
        exact ⟨by omega, by omega, by omega, by omega, nofun⟩

/-- ASCII characters are their bytes. -/
lemma asBytes_ascii {cs : List Char} (ascii : ∀ c ∈ cs, c.toNat < 128) :
    asBytes (String.ofList cs) = cs.map fun c => UInt8.ofNat c.toNat := by
  rw [asBytes_ofList]
  induction cs with
  | nil => rfl
  | cons c cs ih =>
    obtain ⟨_, one⟩ | ⟨high, _⟩ := utf8EncodeChar_cases c
    · rw [List.flatMap_cons, one, ih fun d hd => ascii d (List.mem_cons_of_mem c hd)]
      rfl
    · exact absurd (ascii c List.mem_cons_self) (Nat.not_lt.mpr high)

/-- A character of ASCII bytes is one byte. -/
lemma utf8EncodeChar_ascii {c : Char} (h : ∀ b ∈ String.utf8EncodeChar c, b.toNat < 128) :
    c.toNat < 128 ∧ String.utf8EncodeChar c = [UInt8.ofNat c.toNat] := by
  have first {n : Nat} (le : 128 ≤ n) (lt : n < 256) (m : UInt8.ofNat n ∈ String.utf8EncodeChar c) :
      False := by
    have := h _ m
    rw [UInt8.toNat_ofNat'] at this
    omega
  have v : c.val.toNat = c.toNat := rfl
  unfold String.utf8EncodeChar at h first ⊢
  simp only [v] at h first ⊢
  split at first
  · rename_i le
    rw [if_pos le]
    exact ⟨by omega, rfl⟩
  · split at first
    · exact absurd List.mem_cons_self fun m => first (by omega) (by omega) m
    · split at first
      · exact absurd List.mem_cons_self fun m => first (by omega) (by omega) m
      · exact absurd List.mem_cons_self fun m => first (by omega) (by omega) m

/-- The slice after the prefix of a concatenation. -/
lemma stripPrefix_append (pat s : String) : stripPrefix (pat ++ s) pat = some s := by
  have e : asBytes (pat ++ s) = asBytes pat ++ asBytes s := by
    simp [asBytes, String.toByteArray_append]
  simp [stripPrefix, startsWith, e]

/-- The text of bytes has these bytes. -/
lemma fromUtf8_eq_some {b : Bytes} {s : String} : fromUtf8 b = some s ↔ asBytes s = b := by
  constructor
  · intro h
    unfold fromUtf8 String.fromUTF8? at h
    split at h
    · cases h
      simp [asBytes, String.fromUTF8]
    · nomatch h
  · rintro rfl
    exact fromUtf8_asBytes s

/-- The bytes of two texts. -/
lemma asBytes_append (s t : String) : asBytes (s ++ t) = asBytes s ++ asBytes t := by
  simp [asBytes, String.toByteArray_append]

/-- A prefix can be stripped from what starts with it. -/
lemma stripPrefix_eq_some {s pat t : String} : stripPrefix s pat = some t ↔ s = pat ++ t := by
  constructor
  · intro h
    unfold stripPrefix at h
    split at h
    · rename_i starts
      obtain ⟨rest, e⟩ := List.isPrefixOf_iff_prefix.mp starts
      rw [fromUtf8_eq_some, ← e, List.drop_left] at h
      apply asBytes_inj
      rw [asBytes_append, h, e]
    · nomatch h
  · rintro rfl
    exact stripPrefix_append pat t

end Text
