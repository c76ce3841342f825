import WebLoginRelay.Text.Utf8

/-!
# HTTP/1.1 messages

The head of a message is a start line and field lines, each ended by CRLF, and an empty line. `parseRequest`
reads the head of a request and refuses line breaks, blanks and controls where the grammar has none;
`parseRequest_writeHead` says that a head written from tokens and field values is read as just these.
-/

namespace Net.Http
open Text

/-- CR LF. -/
def crlf : Bytes := [13, 10]

/-- A character of a token: a letter, a digit or one of ``!#$%&'*+-.^_`|~``. -/
def isTchar (b : UInt8) : Bool :=
  (65 ≤ b && b ≤ 90) || (97 ≤ b && b ≤ 122) || (48 ≤ b && b ≤ 57)
    || b ∈ ([33, 35, 36, 37, 38, 39, 42, 43, 45, 46, 94, 95, 96, 124, 126] : Bytes)

/-- A character of a field value: visible, a blank, a tab or above ASCII. -/
def isFieldByte (b : UInt8) : Bool := b == 9 || (32 ≤ b && b != 127)

/-- A visible ASCII character. -/
def isVisible (b : UInt8) : Bool := 33 ≤ b && b ≤ 126

/-- A blank or a tab. -/
def isOws (b : UInt8) : Bool := b == 32 || b == 9

/-- The bytes without white space around them. -/
def trim (bs : Bytes) : Bytes := ((bs.dropWhile isOws).reverse.dropWhile isOws).reverse

/-- The bytes before the first `sep`, and those after it. -/
def cut (sep : UInt8) : Bytes → Option (Bytes × Bytes)
  | [] => none
  | b :: rest => if b = sep then some ([], rest) else (cut sep rest).map fun p => (b :: p.1, p.2)

/-- A line, and what follows its CRLF. A CR or a LF alone is refused. -/
def line : Bytes → Option (Bytes × Bytes)
  | [] => none
  | b :: rest =>
    if b = 13 then
      match rest with
      | 10 :: rest => some ([], rest)
      | _ => none
    else if b = 10 then none
    else (line rest).map fun p => (b :: p.1, p.2)

/-- A field line. -/
def field (l : Bytes) : Option (Bytes × Bytes) := do
  let (name, value) ← cut 58 l
  guard (name ≠ [] ∧ name.all isTchar ∧ value.all isFieldByte)
  return (name, trim value)

/-- The field lines up to the empty line, at most `n` lines. -/
def fields : Nat → Bytes → Option (List (Bytes × Bytes) × Bytes)
  | 0, _ => none
  | n + 1, bs => do
    let (l, rest) ← line bs
    if l = [] then return ([], rest)
    else
      let f ← field l
      let (fs, rest) ← fields n rest
      return (f :: fs, rest)

/-- The head of a request. -/
structure RequestHead where
  method : Bytes
  target : Bytes
  fields : List (Bytes × Bytes)
  deriving DecidableEq, Repr

/-- The head of a request, and what follows it. -/
def parseRequest (bs : Bytes) : Option (RequestHead × Bytes) := do
  let (requestLine, rest) ← line bs
  let (method, r) ← cut 32 requestLine
  let (target, version) ← cut 32 r
  guard (method ≠ [] ∧ method.all isTchar ∧ target ≠ [] ∧ target.all isVisible ∧ version = asBytes "HTTP/1.1")
  let (fields, rest) ← fields rest.length rest
  return (⟨method, target, fields⟩, rest)

/-! ## Heads that are read as they were written -/

/-- A field line as it is written. -/
def writeField (f : Bytes × Bytes) : Bytes := f.1 ++ 58 :: 32 :: f.2 ++ crlf

/-- A head as it is written. -/
def RequestHead.write (h : RequestHead) : Bytes :=
  h.method ++ 32 :: h.target ++ 32 :: asBytes "HTTP/1.1" ++ crlf ++ h.fields.flatMap writeField ++ crlf

/-- A token. -/
def IsToken (bs : Bytes) : Prop := bs ≠ [] ∧ ∀ b ∈ bs, isTchar b

/-- A field value: no white space around it. -/
def IsValue (bs : Bytes) : Prop :=
  (∀ b ∈ bs, isFieldByte b) ∧ (∀ b ∈ bs.head?, ¬ isOws b) ∧ ∀ b ∈ bs.getLast?, ¬ isOws b

/-- The parts of a head are what the grammar asks for. -/
structure RequestHead.WellFormed (h : RequestHead) : Prop where
  method : IsToken h.method
  target : h.target ≠ [] ∧ ∀ b ∈ h.target, isVisible b
  fields : ∀ f ∈ h.fields, IsToken f.1 ∧ IsValue f.2

/-- A text is cut at its first separator. -/
lemma cut_append {sep : UInt8} {xs ys : Bytes} (h : sep ∉ xs) : cut sep (xs ++ sep :: ys) = some (xs, ys) := by
  induction xs with
  | nil => simp [cut]
  | cons x xs ih =>
    have ne : x ≠ sep := fun e => h (e ▸ List.mem_cons_self)
    have rest := ih fun m => h (List.mem_cons_of_mem x m)
    simp [cut, ne, rest]

/-- A line ends with its line break. -/
lemma line_append {xs ys : Bytes} (h : ∀ b ∈ xs, b ≠ 13 ∧ b ≠ 10) : line (xs ++ crlf ++ ys) = some (xs, ys) := by
  induction xs with
  | nil => simp [line, crlf]
  | cons x xs ih =>
    obtain ⟨first, rest⟩ := List.forall_mem_cons.mp h
    simp only [List.cons_append, line, if_neg first.1, if_neg first.2, ih rest, Option.map_some]

/-- Nothing is trimmed from a value. -/
lemma trim_value {bs : Bytes} (h : IsValue bs) : trim bs = bs := by
  have keep {xs : Bytes} (first : ∀ b ∈ xs.head?, ¬ isOws b) : xs.dropWhile isOws = xs := by
    cases xs with
    | nil => rfl
    | cons x xs => exact List.dropWhile_cons_of_neg (first x rfl)
  rw [trim, keep h.2.1, keep, List.reverse_reverse]
  rw [List.head?_reverse]
  exact h.2.2

/-- A blank before a value is trimmed. -/
lemma trim_blank {bs : Bytes} (h : IsValue bs) : trim (32 :: bs) = bs := by
  have drop : (32 :: bs).dropWhile isOws = bs.dropWhile isOws := List.dropWhile_cons_of_pos rfl
  rw [trim, drop]
  exact trim_value h

/-- A character of a token is no line break, no blank and no colon. -/
lemma isTchar_ne {b : UInt8} (h : isTchar b) : b ≠ 13 ∧ b ≠ 10 ∧ b ≠ 32 ∧ b ≠ 58 := by
  refine ⟨?_, ?_, ?_, ?_⟩
  all_goals
    rintro rfl
    exact absurd h (by decide)

/-- A byte of a field is no line break. -/
lemma isFieldByte_ne {b : UInt8} (h : isFieldByte b) : b ≠ 13 ∧ b ≠ 10 := by
  constructor
  all_goals
    rintro rfl
    exact absurd h (by decide)

/-- A visible character is no line break and no blank. -/
lemma isVisible_ne {b : UInt8} (h : isVisible b) : b ≠ 13 ∧ b ≠ 10 ∧ b ≠ 32 := by
  refine ⟨?_, ?_, ?_⟩
  all_goals
    rintro rfl
    exact absurd h (by decide)

/-- A written field line is read again. -/
lemma field_write {name value : Bytes} (hn : IsToken name) (hv : IsValue value) :
    field (name ++ 58 :: 32 :: value) = some (name, value) := by
  have colon : (58 : UInt8) ∉ name := fun m => (isTchar_ne (hn.2 _ m)).2.2.2 rfl
  have blank : (32 :: value).all isFieldByte := List.all_eq_true.mpr (List.forall_mem_cons.mpr ⟨rfl, hv.1⟩)
  have token : name.all isTchar := List.all_eq_true.mpr hn.2
  simp only [field, cut_append colon, Option.bind_eq_bind, Option.bind_some, trim_blank hv, blank, token]
  simp [guard, hn.1]

/-- Written field lines are read again, whatever follows the empty line. -/
lemma fields_write {fs : List (Bytes × Bytes)} {n : Nat} {rest : Bytes} (lt : fs.length < n)
    (h : ∀ f ∈ fs, IsToken f.1 ∧ IsValue f.2) :
    fields n (fs.flatMap writeField ++ crlf ++ rest) = some (fs, rest) := by
  induction fs generalizing n with
  | nil =>
    obtain ⟨n, rfl⟩ : ∃ m, n = m + 1 := ⟨n - 1, by omega⟩
    have empty : line (crlf ++ rest) = some ([], rest) := @line_append [] rest nofun
    simp [fields, empty]
  | cons f fs ih =>
    obtain ⟨n, rfl⟩ : ∃ m, n = m + 1 := ⟨n - 1, by omega⟩
    obtain ⟨⟨name, value⟩, all⟩ := List.forall_mem_cons.mp h
    have safe : ∀ b ∈ f.1 ++ 58 :: 32 :: f.2, b ≠ 13 ∧ b ≠ 10 := by
      intro b hb
      obtain hb | hb := List.mem_append.mp hb
      · have ne := isTchar_ne (name.2 b hb)
        exact ⟨ne.1, ne.2.1⟩
      · obtain rfl | hb := List.mem_cons.mp hb
        · decide
        · obtain rfl | hb := List.mem_cons.mp hb
          · decide
          · exact isFieldByte_ne (value.1 b hb)
    have shape : (f :: fs).flatMap writeField ++ crlf ++ rest =
        (f.1 ++ 58 :: 32 :: f.2) ++ crlf ++ (fs.flatMap writeField ++ crlf ++ rest) := by
      simp [writeField]
    have some_line : f.1 ++ 58 :: 32 :: f.2 ≠ [] := by simp
    have later := ih (n := n) (by simpa using lt) all
    rw [shape, fields]
    simp only [line_append safe, Option.bind_eq_bind, Option.bind_some, if_neg some_line,
      field_write name value, later]
    rfl

/-- A written head is read as it was written, and nothing after it. -/
theorem parseRequest_writeHead {h : RequestHead} (wf : h.WellFormed) (rest : Bytes) :
    parseRequest (h.write ++ rest) = some (h, rest) := by
  have version : ∀ b ∈ asBytes "HTTP/1.1", isVisible b := List.all_eq_true.mp (by decide)
  have safe : ∀ b ∈ h.method ++ 32 :: h.target ++ 32 :: asBytes "HTTP/1.1", b ≠ 13 ∧ b ≠ 10 := by
    intro b hb
    simp only [List.mem_append, List.mem_cons] at hb
    obtain (hb | rfl | hb) | rfl | hb := hb
    · have ne := isTchar_ne (wf.method.2 b hb)
      exact ⟨ne.1, ne.2.1⟩
    · decide
    · have ne := isVisible_ne (wf.target.2 b hb)
      exact ⟨ne.1, ne.2.1⟩
    · decide
    · have ne := isVisible_ne (version b hb)
      exact ⟨ne.1, ne.2.1⟩
  have method_blank : (32 : UInt8) ∉ h.method := fun m => (isTchar_ne (wf.method.2 _ m)).2.2.1 rfl
  have target_blank : (32 : UInt8) ∉ h.target := fun m => (isVisible_ne (wf.target.2 _ m)).2.2 rfl
  have shape : h.write ++ rest = (h.method ++ 32 :: h.target ++ 32 :: asBytes "HTTP/1.1") ++ crlf ++
      (h.fields.flatMap writeField ++ crlf ++ rest) := by
    simp [RequestHead.write]
  have enough : h.fields.length < (h.fields.flatMap writeField ++ crlf ++ rest).length := by
    have count : h.fields.length ≤ (h.fields.flatMap writeField).length := by
      induction h.fields with
      | nil => exact Nat.le_refl 0
      | cons f fs ih =>
        simp only [List.flatMap_cons, List.length_append, List.length_cons, writeField]
        omega
    simp only [List.length_append, crlf, List.length_cons, List.length_nil]
    omega
  have first : cut 32 (h.method ++ 32 :: h.target ++ 32 :: asBytes "HTTP/1.1") =
      some (h.method, h.target ++ 32 :: asBytes "HTTP/1.1") := by
    rw [List.append_assoc]
    exact cut_append method_blank
  have tokens : h.method.all isTchar := List.all_eq_true.mpr wf.method.2
  have visible : h.target.all isVisible := List.all_eq_true.mpr wf.target.2
  rw [shape, parseRequest]
  simp only [line_append safe, Option.bind_eq_bind, Option.bind_some, first, cut_append target_blank,
    fields_write enough wf.fields, tokens, visible]
  simp [guard, wf.method.1, wf.target.1]

end Net.Http
