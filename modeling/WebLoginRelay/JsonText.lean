import WebLoginRelay.Json

/-!
# JSON texts

The compact text `serde_json` prints for a value, and the parse of a text of one flat object. The
printed text of an object of scalars parses to its fields.
-/

namespace WebLoginRelay.JsonText

/-- A hexadecimal digit. -/
def hexDigit (n : Nat) : Char := Char.ofNat (if n < 10 then n + 48 else n + 87)

/-- The value of a hexadecimal digit. -/
def hexValue (c : Char) : Option Nat :=
  let n := c.toNat
  if 48 ≤ n ∧ n ≤ 57 then some (n - 48)
  else if 97 ≤ n ∧ n ≤ 102 then some (n - 87)
  else if 65 ≤ n ∧ n ≤ 70 then some (n - 55)
  else none

/-- The letter of a short escape. -/
def short (c : Char) : Option Char :=
  let n := c.toNat
  if n = 34 then some '"'
  else if n = 92 then some '\\'
  else if 14 ≤ n then none
  else if n = 10 then some 'n'
  else if n = 13 then some 'r'
  else if n = 9 then some 't'
  else if n = 8 then some 'b'
  else if n = 12 then some 'f'
  else none

/-- The character of a short escape. -/
def unescape (c : Char) : Option Char :=
  if c = '"' then some '"'
  else if c = '\\' then some '\\'
  else if c = '/' then some '/'
  else if c = 'n' then some '\n'
  else if c = 'r' then some '\r'
  else if c = 't' then some '\t'
  else if c = 'b' then some (Char.ofNat 8)
  else if c = 'f' then some (Char.ofNat 12)
  else none

/-- A character inside a string literal. -/
def escape (c : Char) : List Char :=
  match short c with
  | some e => ['\\', e]
  | none =>
    if c.toNat < 32 then ['\\', 'u', '0', '0', hexDigit (c.toNat / 16), hexDigit (c.toNat % 16)]
    else [c]

/-- A string literal. -/
def printString (s : String) : List Char := '"' :: s.toList.flatMap escape ++ ['"']

/-- An integer literal. -/
def printInt (n : Int) : List Char :=
  if n < 0 then '-' :: Nat.toDigits 10 n.natAbs else Nat.toDigits 10 n.natAbs

mutual

/-- The text of a value. -/
def print : Value → List Char
  | .null => ['n', 'u', 'l', 'l']
  | .bool true => ['t', 'r', 'u', 'e']
  | .bool false => ['f', 'a', 'l', 's', 'e']
  | .int n => printInt n.toInt
  | .str s => printString s
  | .arr items => '[' :: printItems items ++ [']']
  | .obj fields => '\x7b' :: printFields fields ++ ['\x7d']

/-- The items of an array. -/
def printItems : List Value → List Char
  | [] => []
  | [v] => print v
  | v :: vs => print v ++ ',' :: printItems vs

/-- The fields of an object. -/
def printFields : List (String × Value) → List Char
  | [] => []
  | [(key, v)] => printString key ++ ':' :: print v
  | (key, v) :: rest => printString key ++ ':' :: print v ++ ',' :: printFields rest

end

/-- The characters of a string literal after its opening quote, and what follows it. -/
def parseString : List Char → Option (List Char × List Char)
  | [] => none
  | c :: rest =>
    if c = '"' then some ([], rest)
    else if c = '\\' then
      match rest with
      | 'u' :: x :: y :: z :: w :: rest => do
        let n := 4096 * (← hexValue x) + 256 * (← hexValue y) + 16 * (← hexValue z) + (← hexValue w)
        let (s, rest) ← parseString rest
        if 0xD800 ≤ n ∧ n < 0xE000 then none else some (Char.ofNat n :: s, rest)
      | e :: rest => do
        let c ← unescape e
        let (s, rest) ← parseString rest
        some (c :: s, rest)
      | [] => none
    else if c.toNat < 32 then none
    else do
      let (s, rest) ← parseString rest
      some (c :: s, rest)

/-- How an integer literal is reported. -/
def number (negative : Bool) (digits : List Char) : Option Number :=
  let n := Nat.ofDigitChars 10 digits 0
  if digits = [] ∨ (digits.head? = some '0' ∧ digits.length ≠ 1) then none
  else if negative then
    if 0 < n ∧ n ≤ 9223372036854775808 then some (.negInt (Int64.ofInt (-n))) else some .float
  else if n ≤ 18446744073709551615 then some (.posInt (UInt64.ofNat n))
  else some .float

/-- A scalar, and what follows it. -/
def parseScalar : List Char → Option (Json × List Char)
  | 'n' :: 'u' :: 'l' :: 'l' :: rest => some (.null, rest)
  | 't' :: 'r' :: 'u' :: 'e' :: rest => some (.bool true, rest)
  | 'f' :: 'a' :: 'l' :: 's' :: 'e' :: rest => some (.bool false, rest)
  | '"' :: rest => do
    let (s, rest) ← parseString rest
    some (.str (String.ofList s), rest)
  | '-' :: rest => do
    some (.num (← number true (rest.takeWhile Char.isDigit)), rest.dropWhile Char.isDigit)
  | rest => do
    some (.num (← number false (rest.takeWhile Char.isDigit)), rest.dropWhile Char.isDigit)

/-- The fields of an object up to its closing brace, and what follows it; at most `n` of them. -/
def parseFields : Nat → List Char → Option (List (String × Json) × List Char)
  | 0, _ => none
  | n + 1, '"' :: cs => do
    let (key, cs) ← parseString cs
    match cs with
    | ':' :: cs =>
      let (v, cs) ← parseScalar cs
      match cs with
      | '\x7d' :: rest => some ([(String.ofList key, v)], rest)
      | ',' :: cs =>
        let (fields, rest) ← parseFields n cs
        some ((String.ofList key, v) :: fields, rest)
      | _ => none
    | _ => none
  | _ + 1, _ => none

/-- A flat object at the start of a text, and what follows it. -/
def parse (text : String) : Option (Json × String) :=
  match text.toList with
  | '\x7b' :: '\x7d' :: rest => some (.obj [], String.ofList rest)
  | '\x7b' :: cs => (parseFields cs.length cs).map fun p => (.obj p.1, String.ofList p.2)
  | _ => none

/-! ## Printed texts are read again -/

/-- The digits of a control character. -/
lemma hexValue_hexDigit {n : Nat} (h : n < 16) : hexValue (hexDigit n) = some n := by
  have all : ∀ n : Fin 16, hexValue (hexDigit n) = some n.val := by decide
  exact all ⟨n, h⟩

/-- A character is its code. -/
lemma eq_of_toNat {c : Char} {n : Nat} (h : c.toNat = n) : c = Char.ofNat n := by
  rw [← h, Char.ofNat_toNat]

/-- A short escape is undone. -/
lemma unescape_short {c e : Char} (h : short c = some e) : unescape e = some c ∧ e ≠ 'u' := by
  unfold short at h
  dsimp only at h
  split_ifs at h
  all_goals
    cases h
    rw [eq_of_toNat ‹c.toNat = _›]
    decide

/-- Quotes and backslashes have short escapes. -/
lemma short_none {c : Char} (h : short c = none) : c ≠ '"' ∧ c ≠ '\\' := by
  refine ⟨?_, ?_⟩
  · rintro rfl
    nomatch h
  · rintro rfl
    nomatch h

/-- A plain character is read as it is. -/
lemma parseString_plain {c : Char} (t : List Char) (q : c ≠ '"') (b : c ≠ '\\') (lt : ¬ c.toNat < 32) :
    parseString (c :: t) = (parseString t).map fun p => (c :: p.1, p.2) := by
  rw [parseString.eq_def]
  simp only [if_neg q, if_neg b, if_neg lt]
  cases parseString t <;> rfl

/-- A short escape is read as its character. -/
lemma parseString_short {c e : Char} (t : List Char) (un : unescape e = some c) (ne : e ≠ 'u') :
    parseString ('\\' :: e :: t) = (parseString t).map fun p => (c :: p.1, p.2) := by
  have nq : '\\' ≠ '"' := by decide
  rw [parseString.eq_def]
  simp only [if_neg nq, if_true]
  split
  · rename_i heq
    cases heq
    exact absurd rfl ne
  · rename_i heq
    cases heq
    rw [un]
    cases parseString t <;> rfl
  · rename_i heq
    cases heq

/-- A control character is read from its two digits. -/
lemma parseString_control {c : Char} (t : List Char) (lt : c.toNat < 32) :
    parseString ('\\' :: 'u' :: '0' :: '0' :: hexDigit (c.toNat / 16) :: hexDigit (c.toNat % 16) :: t) =
      (parseString t).map fun p => (c :: p.1, p.2) := by
  have z : hexValue '0' = some 0 := by decide
  have hi : hexValue (hexDigit (c.toNat / 16)) = some (c.toNat / 16) :=
    hexValue_hexDigit (by omega)
  have lo : hexValue (hexDigit (c.toNat % 16)) = some (c.toNat % 16) :=
    hexValue_hexDigit (by omega)
  have back : Char.ofNat (16 * (c.toNat / 16) + c.toNat % 16) = c := by
    rw [Nat.div_add_mod, Char.ofNat_toNat]
  have small : ¬ (0xD800 ≤ 16 * (c.toNat / 16) + c.toNat % 16 ∧
    16 * (c.toNat / 16) + c.toNat % 16 < 0xE000) := by omega
  cases h : parseString t with
  | none => simp [parseString, h, z, hi, lo]
  | some p => simp [parseString, h, z, hi, lo, back, small]

/-- An escaped character is read again. -/
lemma parseString_escape (c : Char) (t : List Char) :
    parseString (escape c ++ t) = (parseString t).map fun p => (c :: p.1, p.2) := by
  unfold escape
  cases sh : short c with
  | some e =>
    obtain ⟨un, ne⟩ := unescape_short sh
    exact parseString_short t un ne
  | none =>
    obtain ⟨q, b⟩ := short_none sh
    dsimp only
    split
    · exact parseString_control t ‹_›
    · exact parseString_plain t q b ‹_›

/-- A printed string literal is read again. -/
lemma parseString_flatMap (cs t : List Char) :
    parseString (cs.flatMap escape ++ '"' :: t) = some (cs, t) := by
  induction cs with
  | nil => exact parseString.eq_def _
  | cons c cs ih => rw [List.flatMap_cons, List.append_assoc, parseString_escape, ih]; rfl

/-- What may follow a scalar inside an object. -/
def Closed (t : List Char) : Prop := t.head?.all fun c => !c.isDigit

/-- The digits of a number end where it does. -/
lemma takeWhile_digits {ds t : List Char} (all : ∀ c ∈ ds, c.isDigit) (cl : Closed t) :
    (ds ++ t).takeWhile Char.isDigit = ds ∧ (ds ++ t).dropWhile Char.isDigit = t := by
  have stop : t.takeWhile Char.isDigit = [] ∧ t.dropWhile Char.isDigit = t := by
    cases t with
    | nil => exact ⟨rfl, rfl⟩
    | cons c t =>
      have nd : c.isDigit = false := by simpa [Closed] using cl
      simp [nd]
  rw [List.takeWhile_append_of_pos all, List.dropWhile_append_of_pos all, stop.1, stop.2]
  simp


/-- The digits of a positive number do not start with a zero. -/
lemma head_toDigits {n : Nat} (pos : 0 < n) : (Nat.toDigits 10 n).head? ≠ some '0' := by
  induction n using Nat.strong_induction_on with
  | _ n ih =>
    by_cases small : n < 10
    · have all : ∀ n : Fin 10, 0 < n.val → n.val.digitChar ≠ '0' := by decide
      rw [Nat.toDigits_of_lt_base small]
      simpa using all ⟨n, small⟩ pos
    · rw [Nat.toDigits_of_base_le (by omega) (by omega),
        List.head?_append_of_ne_nil _ Nat.toDigits_ne_nil]
      exact ih (n / 10) (by omega) (by omega)

/-- The digits of a number have no leading zero. -/
lemma toDigits_plain (n : Nat) : ¬ (Nat.toDigits 10 n = [] ∨
    ((Nat.toDigits 10 n).head? = some '0' ∧ (Nat.toDigits 10 n).length ≠ 1)) := by
  rintro (e | ⟨e, len⟩)
  · exact Nat.toDigits_ne_nil e
  · obtain rfl | pos := Nat.eq_zero_or_pos n
    · exact len rfl
    · exact head_toDigits pos e

/-- A printed natural number is reported as it is. -/
lemma number_toDigits {n : Nat} (le : n ≤ 18446744073709551615) :
    number false (Nat.toDigits 10 n) = some (.posInt (UInt64.ofNat n)) := by
  simp only [number, if_neg (toDigits_plain n), Nat.ofDigitChars_ten_toDigits, Bool.false_eq_true,
    if_false, if_pos le]

/-- A printed negative number is reported as it is. -/
lemma number_negative {n : Nat} (pos : 0 < n) (le : n ≤ 9223372036854775808) :
    number true (Nat.toDigits 10 n) = some (.negInt (Int64.ofInt (-n))) := by
  have range : 0 < n ∧ n ≤ 9223372036854775808 := ⟨pos, le⟩
  simp only [number, if_neg (toDigits_plain n), Nat.ofDigitChars_ten_toDigits, if_true, if_pos range]

/-- A text that starts with a digit is read as a number. -/
lemma parseScalar_digit {c : Char} (t : List Char) (d : c.isDigit) :
    parseScalar (c :: t) = (number false ((c :: t).takeWhile Char.isDigit)).map
      fun n => (.num n, (c :: t).dropWhile Char.isDigit) := by
  rw [parseScalar.eq_def]
  split
  all_goals first
    | (rename_i heq; cases heq; exact absurd d (by decide))
    | skip
  cases number false ((c :: t).takeWhile Char.isDigit) <;> rfl

/-- A printed integer is read again. -/
lemma parseScalar_printInt (n : Int64) {t : List Char} (cl : Closed t) :
    parseScalar (printInt n.toInt ++ t) =
      some (.num (if 0 ≤ n then .posInt n.toUInt64 else .negInt n), t) := by
  have all : ∀ c ∈ Nat.toDigits 10 n.toInt.natAbs, c.isDigit :=
    fun c => Nat.isDigit_of_mem_toDigits (by omega) (by omega)
  obtain ⟨take, drop⟩ := takeWhile_digits all cl
  have lo := Int64.le_toInt n
  have hi := Int64.toInt_lt n
  unfold printInt
  split
  · rename_i neg
    have back : Int64.ofInt (-(n.toInt.natAbs : Int)) = n := by
      rw [show -(n.toInt.natAbs : Int) = n.toInt by omega, Int64.ofInt_toInt]
    have nn : ¬ 0 ≤ n := by
      rw [Int64.le_iff_toInt_le]
      simpa using neg
    rw [List.cons_append, parseScalar, take, drop, number_negative (by omega) (by omega), back,
      if_neg nn]
    rfl
  · rename_i neg
    have nn : 0 ≤ n := by
      rw [Int64.le_iff_toInt_le]
      simpa using neg
    have back : UInt64.ofNat n.toInt.natAbs = n.toUInt64 := by
      apply UInt64.toNat.inj
      rw [Int64.toNat_toUInt64_of_le nn, Int64.toNatClampNeg, UInt64.toNat_ofNat']
      omega
    cases ds : Nat.toDigits 10 n.toInt.natAbs with
    | nil => exact absurd ds Nat.toDigits_ne_nil
    | cons c cs =>
      rw [ds] at take drop all
      rw [List.cons_append, parseScalar_digit _ (all c (by simp)), ← List.cons_append, take, drop, ← ds,
        number_toDigits (by omega), back, if_pos nn]
      rfl

/-- A printed scalar is read again. -/
lemma parseScalar_print {v : Value} {t : List Char} (sc : v.isScalar) (cl : Closed t) :
    parseScalar (print v ++ t) = some (Json.ofScalar v, t) := by
  cases v with
  | null => simp [print, parseScalar, Json.ofScalar]
  | bool b => cases b <;> simp [print, parseScalar, Json.ofScalar]
  | int n => simpa [print, Json.ofScalar] using parseScalar_printInt n cl
  | str s =>
    simp only [print, printString, List.cons_append, List.append_assoc, List.nil_append, parseScalar,
      parseString_flatMap]
    simp [Json.ofScalar]
  | arr items => cases sc
  | obj fields => cases sc

/-- The printed fields of an object are read again. -/
lemma parseFields_printFields {fields : List (String × Value)} {n : Nat} (ne : fields ≠ [])
    (len : fields.length ≤ n) (sc : ∀ f ∈ fields, f.2.isScalar) :
    parseFields n (printFields fields ++ ['\x7d']) =
      some (fields.map fun f => (f.1, Json.ofScalar f.2), []) := by
  induction fields generalizing n with
  | nil => exact absurd rfl ne
  | cons f fields ih =>
    obtain ⟨key, v⟩ := f
    obtain _ | n := n
    · simp at len
    have sv : v.isScalar := sc (key, v) (by simp)
    have brace : Closed ['\x7d'] := by simp [Closed]
    cases fields with
    | nil =>
      simp only [printFields, printString, List.cons_append, List.append_assoc, List.nil_append,
        parseFields, parseString_flatMap, parseScalar_print sv brace, Option.bind_eq_bind,
        Option.bind_some]
      simp
    | cons g fields =>
      have comma : Closed (',' :: (printFields (g :: fields) ++ ['\x7d'])) := by simp [Closed]
      have rest := ih (n := n) (by simp) (by simpa using len) fun f hf => sc f (by simp [hf])
      simp only [printFields, printString, List.cons_append, List.append_assoc, List.nil_append,
        parseFields, parseString_flatMap, parseScalar_print sv comma, rest, Option.bind_eq_bind,
        Option.bind_some]
      simp

/-- Every field takes a character. -/
lemma length_le_printFields (fields : List (String × Value)) :
    fields.length ≤ (printFields fields).length := by
  induction fields with
  | nil => simp
  | cons f fields ih =>
    obtain ⟨key, v⟩ := f
    cases fields with
    | nil => simp [printFields, printString]
    | cons g fields =>
      simp only [printFields, List.length_append, List.length_cons] at ih ⊢
      omega

/-- The printed fields of an object start with a key. -/
lemma printFields_cons (f : String × Value) (fields : List (String × Value)) :
    ∃ t, printFields (f :: fields) = '"' :: t := by
  obtain ⟨key, v⟩ := f
  cases fields <;> simp [printFields, printString]

/-- The printed text of an object of scalars parses to its fields. -/
theorem parse_print {fields : List (String × Value)} (sc : ∀ f ∈ fields, f.2.isScalar) :
    parse (String.ofList (print (.obj fields))) =
      some (.obj (fields.map fun f => (f.1, Json.ofScalar f.2)), "") := by
  cases fields with
  | nil => simp [parse, print, printFields]
  | cons f fields =>
    have len := length_le_printFields (f :: fields)
    have read := parseFields_printFields (n := (printFields (f :: fields) ++ ['\x7d']).length)
      (by simp) (by simp at len ⊢; omega) sc
    obtain ⟨t, e⟩ := printFields_cons f fields
    rw [e] at read
    simp only [parse, print, e, String.toList_ofList, List.cons_append] at read ⊢
    split
    · rename_i heq
      simp at heq
    · rename_i heq
      cases heq
      rw [read]
      simp
    · rename_i no
      exact absurd rfl (no _)

/-! ## Lengths -/

/-- An escape has at most six characters. -/
lemma length_escape (c : Char) : (escape c).length ≤ 6 := by
  unfold escape
  split
  · simp
  · split
    · simp
    · simp

/-- An escaped character takes at most six characters. -/
lemma length_printString (s : String) : (printString s).length ≤ 6 * s.length + 2 := by
  have body : (s.toList.flatMap escape).length ≤ 6 * s.toList.length := by
    induction s.toList with
    | nil => simp
    | cons c cs ih =>
      have := length_escape c
      simp only [List.flatMap_cons, List.length_append, List.length_cons]
      omega
  simp only [printString, List.length_append, List.length_cons, List.length_nil]
  rw [String.length_toList] at body
  omega

/-- The text of a short string is short. -/
lemma length_print_str {s : String} {n : Nat} (h : s.length ≤ n) :
    (print (.str s)).length ≤ 6 * n + 2 := by
  have := length_printString s
  simp only [print]
  omega

/-- An `i64` takes at most twenty characters. -/
lemma length_print_int (n : Int64) : (print (.int n)).length ≤ 20 := by
  have lo := n.le_toInt
  have hi := n.toInt_lt
  have digits : (Nat.toDigits 10 n.toInt.natAbs).length ≤ 19 := by
    rw [Nat.length_toDigits_le_iff (by omega) (by omega)]
    omega
  simp only [print, printInt]
  split
  · simp only [List.length_cons]
    omega
  · omega

/-- A bound for the text of an object, from a bound for each of its fields. -/
lemma length_print_fields {fields : List (String × Value)} {bounds : List Nat}
    (h : List.Forall₂ (fun f b => 6 * f.1.length + (print f.2).length + 4 ≤ b) fields bounds) :
    (print (.obj fields)).length ≤ bounds.sum + 2 := by
  have body : (printFields fields).length ≤ bounds.sum := by
    induction h with
    | nil => simp [printFields]
    | @cons f b fields bounds first _ ih =>
      obtain ⟨key, v⟩ := f
      have := length_printString key
      cases fields with
      | nil =>
        simp only [printFields, List.length_append, List.length_cons, List.sum_cons] at ih first ⊢
        omega
      | cons g fields =>
        simp only [printFields, List.length_append, List.length_cons, List.sum_cons] at ih first ⊢
        omega
  simp only [print, List.length_append, List.length_cons, List.length_nil]
  omega

/-- A bound for the text of an object, from bounds for its keys and values. -/
lemma length_print_obj {fields : List (String × Value)} {k b : Nat} (keys : ∀ f ∈ fields, f.1.length ≤ k)
    (values : ∀ f ∈ fields, (print f.2).length ≤ b) :
    (print (.obj fields)).length ≤ fields.length * (6 * k + b + 4) + 2 := by
  have each : List.Forall₂ (fun f c => 6 * f.1.length + (print f.2).length + 4 ≤ c) fields
      (List.replicate fields.length (6 * k + b + 4)) := by
    induction fields with
    | nil => exact .nil
    | cons f fields ih =>
      refine .cons ?_ (ih (fun g hg => keys g (by simp [hg])) fun g hg => values g (by simp [hg]))
      have := keys f (by simp)
      have := values f (by simp)
      omega
  have := length_print_fields each
  rwa [List.sum_replicate_nat] at this

end WebLoginRelay.JsonText
