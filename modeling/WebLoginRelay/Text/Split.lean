import WebLoginRelay.Text.Utf8

/-!
# Slices of a string

`str::split_once`, `split`, `split_whitespace`, `to_ascii_lowercase` and `parse::<u16>` of the Rust standard
library. A slice of a `str` is a range of its bytes that ends between characters: `isUtf8_split` says that it
does at ASCII characters.
-/

namespace Text

/-- `str::split_once`: what comes before the first match of a pattern, and what comes after it. -/
def splitOnce (pat : Bytes) : Bytes → Option (Bytes × Bytes)
  | [] => if pat = [] then some ([], []) else none
  | b :: bs =>
    if pat.isPrefixOf (b :: bs) then some ([], (b :: bs).drop pat.length)
    else (splitOnce pat bs).map fun p => (b :: p.1, p.2)

/-- The pieces between the first `n` matches of a pattern. -/
def pieces (pat : Bytes) : Nat → Bytes → List Bytes
  | 0, bs => [bs]
  | n + 1, bs =>
    match splitOnce pat bs with
    | none => [bs]
    | some (piece, rest) => piece :: pieces pat n rest

/-- `str::split`, for a pattern that is not empty: there are no more matches than bytes. -/
def split (pat bs : Bytes) : List Bytes := pieces pat bs.length bs

/-- `str::split_whitespace`. -/
def splitWhitespace (s : String) : List (List Char) := (s.toList.splitOnP isWhitespace).filter (· ≠ [])

/-- `str::to_ascii_lowercase`. -/
def toAsciiLowercase (bs : Bytes) : Bytes := bs.map fun b => if 65 ≤ b ∧ b ≤ 90 then b + 32 else b

/-- The digits after an optional plus sign. -/
def unsigned : List Char → List Char
  | '+' :: digits => digits
  | digits => digits

/-- `str::parse::<u16>`: an optional plus sign and the decimal digits of a number below `2 ^ 16`. -/
def parseU16 (cs : List Char) : Option UInt16 :=
  let n := Nat.ofDigitChars 10 (unsigned cs) 0
  if unsigned cs ≠ [] ∧ (unsigned cs).all Char.isDigit ∧ n < 65536 then some (.ofNat n) else none

variable {p : UInt8} {ps xs ys bs : Bytes}

/-- The first byte of a match is not among the bytes before it. -/
lemma splitOnce_append (h : p ∉ xs) :
    splitOnce (p :: ps) (xs ++ ys) = (splitOnce (p :: ps) ys).map fun q => (xs ++ q.1, q.2) := by
  induction xs with
  | nil => simp
  | cons x xs ih =>
    have ne : (p == x) = false := beq_false_of_ne fun e => h (e ▸ List.mem_cons_self)
    have later := ih fun m => h (List.mem_cons_of_mem x m)
    simp only [List.cons_append, splitOnce, List.isPrefixOf, ne, Bool.false_and, Bool.false_eq_true, if_false,
      later, Option.map_map]
    rfl

/-- A separator at the beginning. -/
lemma splitOnce_match : splitOnce (p :: ps) (p :: ps ++ ys) = some ([], ys) := by
  have here : (p :: ps).isPrefixOf (p :: (ps ++ ys)) := by simp
  have rest : (p :: (ps ++ ys)).drop (p :: ps).length = ys := by simp
  simp only [List.cons_append, splitOnce, if_pos here, rest]

/-- Without the first byte of a pattern there is one piece. -/
lemma splitOnce_none (h : p ∉ xs) : splitOnce (p :: ps) xs = none := by
  have none := @splitOnce_append p ps xs [] h
  rw [List.append_nil] at none
  rw [none]
  rfl

/-- The pieces are those that were joined. -/
lemma pieces_intercalate {piece : Bytes} {more : List Bytes} {n : Nat} (le : more.length ≤ n)
    (h : ∀ l ∈ piece :: more, p ∉ l) :
    pieces (p :: ps) n ((p :: ps).intercalate (piece :: more)) = piece :: more := by
  induction more generalizing piece n with
  | nil =>
    have single : (p :: ps).intercalate [piece] = piece := by simp [List.intercalate]
    rw [single]
    cases n with
    | zero => rfl
    | succ n =>
      rw [pieces, splitOnce_none (h piece List.mem_cons_self)]
  | cons next more ih =>
    obtain ⟨n, rfl⟩ : ∃ m, n = m + 1 := ⟨n - 1, by simp only [List.length_cons] at le; omega⟩
    have shape : (p :: ps).intercalate (piece :: next :: more) =
        piece ++ (p :: ps ++ (p :: ps).intercalate (next :: more)) := by
      simp [List.intercalate]
    obtain ⟨first, rest⟩ := List.forall_mem_cons.mp h
    rw [shape, pieces, splitOnce_append first, splitOnce_match]
    have later := ih (n := n) (by simpa using le) rest
    simp only [Option.map_some, List.append_nil, later]

/-- The second word of three. -/
lemma splitWhitespace_second {first second : List Char} {r : String} {a b : Char} (ha : isWhitespace a)
    (hb : isWhitespace b) (some_first : first ≠ []) (some_second : second ≠ [])
    (h : ∀ c ∈ first, isWhitespace c = false) (h' : ∀ c ∈ second, isWhitespace c = false) :
    (splitWhitespace (String.ofList (first ++ a :: (second ++ b :: r.toList))))[1]? = some second := by
  have two : (first ++ a :: (second ++ b :: r.toList)).splitOnP isWhitespace =
      first :: second :: r.toList.splitOnP isWhitespace := by
    rw [List.splitOnP_append_cons_of_forall_mem h _ ha, List.splitOnP_append_cons_of_forall_mem h' _ hb]
  rw [splitWhitespace, String.toList_ofList, two]
  simp [some_first, some_second]

/-- A printed number is read. -/
lemma parseU16_toDigits {n : Nat} (lt : n < 65536) : parseU16 (Nat.toDigits 10 n) = some (.ofNat n) := by
  have digits : ∀ c ∈ Nat.toDigits 10 n, c.isDigit := fun c hc =>
    Nat.isDigit_of_mem_toDigits (by decide) (by decide) hc
  have plain : unsigned (Nat.toDigits 10 n) = Nat.toDigits 10 n := by
    unfold unsigned
    split
    · rename_i more e
      have plus := digits '+' (e ▸ List.mem_cons_self)
      exact absurd plus (by decide)
    · rfl
  rw [parseU16, plain, Nat.ofDigitChars_ten_toDigits]
  exact if_pos ⟨Nat.toDigits_ne_nil, List.all_eq_true.mpr digits, lt⟩

/-! ## Slices are text -/

/-- The bytes of a string. -/
def IsUtf8 (bs : Bytes) : Prop := ∃ s, asBytes s = bs

/-- Bytes are UTF-8 if they are those of a text. -/
lemma isUtf8_iff : IsUtf8 bs ↔ ∃ s, fromUtf8 bs = some s := by
  simp only [fromUtf8_eq_some, IsUtf8]

/-- UTF-8 after UTF-8 is UTF-8. -/
lemma IsUtf8.append (hx : IsUtf8 xs) (hy : IsUtf8 ys) : IsUtf8 (xs ++ ys) := by
  obtain ⟨s, rfl⟩ := hx
  obtain ⟨t, rfl⟩ := hy
  exact ⟨s ++ t, asBytes_append s t⟩

/-- An ASCII byte of a text is a character of its own. -/
lemma isUtf8_split {b : UInt8} (ascii : b.toNat < 128) : IsUtf8 (xs ++ b :: ys) ↔ IsUtf8 xs ∧ IsUtf8 ys := by
  constructor
  · rintro ⟨s, e⟩
    rw [← String.ofList_toList (s := s), asBytes_ofList] at e
    -- by induction on the characters: the byte is one of them, or it comes after the first
    generalize s.toList = cs at e
    induction cs generalizing xs with
    | nil => simp at e
    | cons c cs ih =>
      rw [List.flatMap_cons] at e
      have head : IsUtf8 (String.utf8EncodeChar c) := ⟨String.ofList [c], by rw [asBytes_ofList, List.flatMap_singleton]⟩
      obtain ⟨zs, left, right⟩ | ⟨zs, left, right⟩ := List.append_eq_append_iff.mp e
      · obtain ⟨hz, hy⟩ := ih right
        exact ⟨left ▸ head.append hz, hy⟩
      · cases zs with
        | nil =>
          obtain ⟨-, hy⟩ := @ih [] (by simpa using right.symm)
          refine ⟨?_, hy⟩
          rw [List.append_nil] at left
          exact left ▸ head
        | cons z zs =>
          obtain ⟨rfl, rest⟩ := List.cons.inj right
          obtain ⟨_, one⟩ | ⟨_, high⟩ := utf8EncodeChar_cases c
          · rw [one] at left
            obtain ⟨rfl, single⟩ : xs = [] ∧ b :: zs = [UInt8.ofNat c.toNat] := by
              cases xs with
              | nil => exact ⟨rfl, left.symm⟩
              | cons x xs => simp at left
            obtain ⟨-, rfl⟩ := List.cons.inj single
            exact ⟨⟨"", rfl⟩, String.ofList cs, by rw [asBytes_ofList, rest]; rfl⟩
          · have := high b (left ▸ List.mem_append_right xs List.mem_cons_self)
            omega
  · rintro ⟨hx, t, rfl⟩
    have ascii' : ∀ c ∈ [Char.ofUInt8 b], c.toNat < 128 := by
      intro c hc
      rw [List.mem_singleton.mp hc]
      exact ascii
    have single : asBytes (String.ofList [Char.ofUInt8 b]) = [b] := by
      rw [asBytes_ascii ascii']
      exact congrArg (fun n => [n]) UInt8.ofNat_toNat
    refine hx.append ⟨String.ofList [Char.ofUInt8 b] ++ t, ?_⟩
    rw [asBytes_append, single]
    rfl

end Text
