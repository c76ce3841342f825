import WebLoginRelay.Net.Http
import WebLoginRelay.Text.Split

/-!
# HTTP/1.1 responses

What a server sends for a request: interim responses, which are heads with a status below 200, and the final
one. Its content follows the empty line and is framed by a `Content-Length`, by chunks, or by the end of the
connection; a 204 or 304 has none. `splitOnce_head` and `split_head` say how the bytes of a head are cut at
CRLF.
-/

namespace Net.Http
open Text

/-- A field line, with the white space around the value. -/
structure FieldLine where
  name : Bytes
  before : Bytes
  value : Bytes
  after : Bytes
  deriving DecidableEq, Repr

/-- A field line as it is written, without its CRLF. -/
def FieldLine.write (f : FieldLine) : Bytes := f.name ++ 58 :: (f.before ++ f.value ++ f.after)

structure FieldLine.WellFormed (f : FieldLine) : Prop where
  name : IsToken f.name
  before : ∀ b ∈ f.before, isOws b
  value : IsValue f.value
  after : ∀ b ∈ f.after, isOws b

/-- The field has this name, which is in lower case. -/
def FieldLine.Named (f : FieldLine) (name : String) : Prop := toAsciiLowercase f.name = asBytes name

instance (f : FieldLine) (name : String) : Decidable (f.Named name) := by
  unfold FieldLine.Named
  infer_instance

/-- The head of a response. -/
structure ResponseHead where
  status : Nat
  reason : Bytes
  fields : List FieldLine
  deriving DecidableEq, Repr

def ResponseHead.statusLine (h : ResponseHead) : Bytes :=
  asBytes "HTTP/1.1" ++ 32 :: (asBytes (String.ofList (Nat.toDigits 10 h.status)) ++ 32 :: h.reason)

/-- A head as it is written. -/
def ResponseHead.write (h : ResponseHead) : Bytes :=
  h.statusLine ++ crlf ++ h.fields.flatMap (fun f => f.write ++ crlf) ++ crlf

structure ResponseHead.WellFormed (h : ResponseHead) : Prop where
  status : 100 ≤ h.status ∧ h.status ≤ 999
  reason : ∀ b ∈ h.reason, isFieldByte b
  fields : ∀ f ∈ h.fields, f.WellFormed

/-- The values of the fields of a name. -/
def ResponseHead.values (h : ResponseHead) (name : String) : List Bytes :=
  (h.fields.filter fun f => f.Named name).map (·.value)

/-- The head has a `Location`. -/
def ResponseHead.HasLocation (h : ResponseHead) : Prop := ∃ f ∈ h.fields, f.Named "location"

/-! ## Content -/

/-- The value of a hexadecimal digit. -/
def hexDigit? (b : UInt8) : Option Nat :=
  if 48 ≤ b ∧ b ≤ 57 then some (b.toNat - 48)
  else if 65 ≤ b ∧ b ≤ 70 then some (b.toNat - 55)
  else if 97 ≤ b ∧ b ≤ 102 then some (b.toNat - 87)
  else none

/-- The bytes are the hexadecimal digits of a number. -/
def IsHex (bs : Bytes) (n : Nat) : Prop :=
  bs ≠ [] ∧ ∃ ds, bs.mapM hexDigit? = some ds ∧ ds.foldl (fun n d => 16 * n + d) 0 = n

/-- The bytes are the decimal digits of a number, zeros in front included. -/
def IsDecimal (bs : Bytes) (n : Nat) : Prop :=
  ∃ zeros, bs = List.replicate zeros 48 ++ asBytes (String.ofList (Nat.toDigits 10 n))

/-- A chunk: its size as it is written, the extensions after it, and the data. -/
structure Chunk where
  size : Bytes
  extensions : Bytes
  data : Bytes
  deriving DecidableEq, Repr

def Chunk.write (c : Chunk) : Bytes := c.size ++ c.extensions ++ crlf ++ c.data ++ crlf

/-- The extensions of a chunk: a semicolon and what follows it on the line. -/
def IsExtensions (bs : Bytes) : Prop := (∀ b ∈ bs, isFieldByte b) ∧ ∀ b ∈ bs.head?, b = 59 ∨ isOws b

structure Chunk.WellFormed (c : Chunk) : Prop where
  data : c.data ≠ []
  size : IsHex c.size c.data.length
  extensions : IsExtensions c.extensions

/-- How the end of the content is told. -/
inductive Framing where
  /-- There is no content. -/
  | none
  /-- A `Content-Length`. -/
  | length
  /-- Chunks, the size and the extensions of the last one, and the trailer fields. -/
  | chunked (chunks : List Chunk) (last extensions : Bytes) (trailers : List FieldLine)
  /-- The connection is closed. -/
  | close
  deriving DecidableEq, Repr

/-- The content comes in chunks. -/
def Framing.IsChunked : Framing → Prop
  | .chunked .. => True
  | _ => False

/-- What a server sends for a request. -/
structure Response where
  interims : List ResponseHead
  head : ResponseHead
  framing : Framing
  payload : Bytes
  deriving DecidableEq, Repr

/-- The content as it is sent. -/
def Response.content (r : Response) : Bytes :=
  match r.framing with
  | .none => []
  | .length | .close => r.payload
  | .chunked chunks last extensions trailers =>
    chunks.flatMap Chunk.write ++ last ++ extensions ++ crlf
      ++ trailers.flatMap (fun f => f.write ++ crlf) ++ crlf

/-- The bytes of the final response. -/
def Response.finalBytes (r : Response) : Bytes := r.head.write ++ r.content

/-- The bytes a server sends. -/
def Response.bytes (r : Response) : Bytes := r.interims.flatMap ResponseHead.write ++ r.finalBytes

/-- The framing is the one the head announces, and the payload is what it frames. -/
def Response.Framed (r : Response) : Prop :=
  match r.framing with
  | .none => r.payload = []
  | .length => r.head.values "transfer-encoding" = [] ∧
      ∃ digits, r.head.values "content-length" = [digits] ∧ IsDecimal digits r.payload.length
  | .chunked chunks last extensions trailers =>
    (r.head.values "transfer-encoding").map toAsciiLowercase = [asBytes "chunked"] ∧
      r.head.values "content-length" = [] ∧ chunks.flatMap Chunk.data = r.payload ∧ (∀ c ∈ chunks, c.WellFormed) ∧
      IsHex last 0 ∧ IsExtensions extensions ∧ ∀ f ∈ trailers, f.WellFormed
  | .close => r.head.values "transfer-encoding" = [] ∧ r.head.values "content-length" = []

structure Response.WellFormed (r : Response) : Prop where
  interims : ∀ h ∈ r.interims, h.WellFormed ∧ h.status < 200
  head : r.head.WellFormed
  final : 200 ≤ r.head.status
  bodiless : r.framing = .none ↔ r.head.status = 204 ∨ r.head.status = 304
  framed : r.Framed

/-! ## Heads are cut at CRLF -/

/-- Optional blanks are no line break. -/
lemma isOws_ne {b : UInt8} (h : isOws b) : b ≠ 13 ∧ b ≠ 10 ∧ isFieldByte b := by
  simp only [isOws, Bool.or_eq_true, beq_iff_eq] at h
  obtain rfl | rfl := h
  · decide
  · decide

/-- There is no CR in a field line. -/
lemma FieldLine.WellFormed.no_cr {f : FieldLine} (wf : f.WellFormed) : (13 : UInt8) ∉ f.write := by
  intro m
  simp only [FieldLine.write, List.mem_append, List.mem_cons] at m
  obtain m | m | (m | m) | m := m
  · exact (isTchar_ne (wf.name.2 _ m)).1 rfl
  · exact absurd m (by decide)
  · exact (isOws_ne (wf.before _ m)).1 rfl
  · exact (isFieldByte_ne (wf.value.1 _ m)).1 rfl
  · exact (isOws_ne (wf.after _ m)).1 rfl

/-- No field is written as an empty line. -/
lemma FieldLine.write_ne_nil (f : FieldLine) : f.write ≠ [] := by
  simp [FieldLine.write]

/-- Lines that are each ended by CRLF, and an empty line. -/
lemma lines_eq (l : Bytes) (ls : List Bytes) :
    l ++ crlf ++ ls.flatMap (· ++ crlf) ++ crlf = crlf.intercalate (l :: ls) ++ (crlf ++ crlf) := by
  induction ls generalizing l with
  | nil => simp [List.intercalate]
  | cons next ls ih =>
    have join : crlf.intercalate (l :: next :: ls) = l ++ crlf ++ crlf.intercalate (next :: ls) := by
      simp [List.intercalate]
    rw [join, List.append_assoc _ _ (crlf ++ crlf), ← ih next]
    simp

/-- The first empty line is the one after the lines. -/
lemma splitOnce_lines {l : Bytes} {ls : List Bytes} (rest : Bytes) (h : ∀ x ∈ l :: ls, (13 : UInt8) ∉ x)
    (some_line : ∀ x ∈ ls, x ≠ []) :
    splitOnce (crlf ++ crlf) (crlf.intercalate (l :: ls) ++ (crlf ++ crlf) ++ rest) =
      some (crlf.intercalate (l :: ls), rest) := by
  induction ls generalizing l with
  | nil =>
    have single : crlf.intercalate [l] = l := by simp [List.intercalate]
    rw [single, List.append_assoc]
    change splitOnce (13 :: 10 :: crlf) (l ++ (13 :: 10 :: crlf ++ rest)) = _
    rw [splitOnce_append (h l List.mem_cons_self), splitOnce_match]
    simp
  | cons next ls ih =>
    obtain ⟨first, others⟩ := List.forall_mem_cons.mp h
    obtain ⟨some_next, some_others⟩ := List.forall_mem_cons.mp some_line
    have later := ih others some_others
    -- the line after this one starts with another byte than CR
    have start : ∃ b bs, b ≠ 13 ∧ crlf.intercalate (next :: ls) ++ (crlf ++ crlf) ++ rest = b :: bs := by
      cases next with
      | nil => exact absurd rfl some_next
      | cons b bs =>
        have ne : b ≠ 13 := fun e => others _ List.mem_cons_self (e ▸ List.mem_cons_self)
        cases ls with
        | nil => exact ⟨b, _, ne, by simp [List.intercalate]; rfl⟩
        | cons x xs => exact ⟨b, _, ne, by simp [List.intercalate]; rfl⟩
    obtain ⟨b, bs, ne, e⟩ := start
    have join : crlf.intercalate (l :: next :: ls) ++ (crlf ++ crlf) ++ rest =
        l ++ (13 :: 10 :: (crlf.intercalate (next :: ls) ++ (crlf ++ crlf) ++ rest)) := by
      simp [List.intercalate, crlf]
    have joined : crlf.intercalate (l :: next :: ls) = l ++ (13 :: 10 :: crlf.intercalate (next :: ls)) := by
      simp [List.intercalate, crlf]
    have cr : splitOnce (crlf ++ crlf) (13 :: 10 :: b :: bs) =
        (splitOnce (crlf ++ crlf) (b :: bs)).map fun q => (13 :: 10 :: q.1, q.2) := by
      have differ : (13 == b) = false := beq_false_of_ne fun e => ne e.symm
      have no_match : (crlf ++ crlf).isPrefixOf (13 :: 10 :: b :: bs) = false := by
        simp [crlf, List.isPrefixOf, differ]
      have no_match' : (crlf ++ crlf).isPrefixOf (10 :: b :: bs) = false := rfl
      rw [splitOnce, no_match, splitOnce, no_match']
      simp only [Bool.false_eq_true, if_false, Option.map_map]
      rfl
    rw [join, e]
    change splitOnce (13 :: 10 :: crlf) (l ++ (13 :: 10 :: b :: bs)) = _
    rw [splitOnce_append first]
    change (splitOnce (crlf ++ crlf) (13 :: 10 :: b :: bs)).map _ = _
    rw [cr, ← e, later, joined]
    rfl

/-- The bytes of a printed number are decimal digits. -/
lemma digits_range {n : Nat} {b : UInt8} (m : b ∈ asBytes (String.ofList (Nat.toDigits 10 n))) :
    48 ≤ b.toNat ∧ b.toNat ≤ 57 := by
  have range (c) (hc : c ∈ Nat.toDigits 10 n) : 48 ≤ c.toNat ∧ c.toNat ≤ 57 := by
    have digit : c.isDigit := Nat.isDigit_of_mem_toDigits (by decide) (by decide) hc
    simp only [Char.isDigit, Bool.and_eq_true, decide_eq_true_eq, ge_iff_le, UInt32.le_iff_toNat_le] at digit
    exact digit
  rw [asBytes_ascii fun c hc => by have := range c hc; omega] at m
  obtain ⟨c, hc, rfl⟩ := List.mem_map.mp m
  have := range c hc
  rw [UInt8.toNat_ofNat']
  omega

namespace ResponseHead.WellFormed
variable {h : ResponseHead}

/-- There is no CR in a status line. -/
lemma statusLine_no_cr (wf : h.WellFormed) : (13 : UInt8) ∉ h.statusLine := by
  intro m
  simp only [ResponseHead.statusLine, List.mem_append, List.mem_cons] at m
  obtain m | m | m | m | m := m
  · exact absurd m (by decide)
  · exact absurd m (by decide)
  · exact absurd (digits_range m).1 (by decide)
  · exact absurd m (by decide)
  · exact (isFieldByte_ne (wf.reason _ m)).1 rfl

/-- The lines of a head contain no line break. -/
lemma no_cr (wf : h.WellFormed) : ∀ l ∈ h.statusLine :: h.fields.map FieldLine.write, (13 : UInt8) ∉ l := by
  rw [List.forall_mem_cons, List.forall_mem_map]
  exact ⟨wf.statusLine_no_cr, fun f hf => (wf.fields f hf).no_cr⟩

end ResponseHead.WellFormed

/-- The lines of a head, without the last CRLF. -/
def ResponseHead.header (h : ResponseHead) : Bytes :=
  crlf.intercalate (h.statusLine :: h.fields.map FieldLine.write)

/-- A head is its lines and an empty one. -/
lemma ResponseHead.write_eq (h : ResponseHead) : h.write = h.header ++ (crlf ++ crlf) := by
  rw [header, ← lines_eq, List.flatMap_map]
  rfl

/-- The head ends at the first empty line. -/
theorem splitOnce_head {h : ResponseHead} (wf : h.WellFormed) (rest : Bytes) :
    splitOnce (crlf ++ crlf) (h.write ++ rest) = some (h.header, rest) := by
  rw [h.write_eq]
  apply splitOnce_lines rest wf.no_cr
  rw [List.forall_mem_map]
  exact fun f _ => f.write_ne_nil

/-- Its lines are the status line and the field lines. -/
theorem split_head {h : ResponseHead} (wf : h.WellFormed) :
    split crlf h.header = h.statusLine :: h.fields.map FieldLine.write := by
  have count (l : Bytes) (ls : List Bytes) : ls.length ≤ (crlf.intercalate (l :: ls)).length := by
    induction ls generalizing l with
    | nil => exact Nat.zero_le _
    | cons next ls ih =>
      have join : crlf.intercalate (l :: next :: ls) = l ++ crlf ++ crlf.intercalate (next :: ls) := by
        simp [List.intercalate]
      have more := ih next
      rw [join]
      simp only [List.length_append, List.length_cons, crlf, List.length_nil] at more ⊢
      omega
  exact pieces_intercalate (count _ _) wf.no_cr

/-- A line starts with `location:` in some letter case if it is a `Location` field. -/
theorem location_line {f : FieldLine} (wf : f.WellFormed) :
    (asBytes "location:").isPrefixOf (toAsciiLowercase f.write) ↔ f.Named "location" := by
  have colon : (58 : UInt8) ∉ toAsciiLowercase f.name := by
    intro m
    obtain ⟨b, hb, e⟩ := List.mem_map.mp m
    split at e
    · rename_i upper
      have : b.toNat + 32 = 58 + 256 ∨ b.toNat + 32 = 58 := by
        have sum := congrArg UInt8.toNat e
        rw [UInt8.toNat_add] at sum
        have := b.toNat_lt
        simp at sum
        omega
      simp only [UInt8.le_iff_toNat_le] at upper
      simp at upper
      omega
    · exact (isTchar_ne (wf.name.2 b hb)).2.2.2 e
  have lower : toAsciiLowercase f.write =
      toAsciiLowercase f.name ++ 58 :: toAsciiLowercase (f.before ++ f.value ++ f.after) := by
    simp [FieldLine.write, toAsciiLowercase]
  rw [lower, List.isPrefixOf_iff_prefix, FieldLine.Named]
  constructor
  · rintro ⟨rest, e⟩
    have join : asBytes "location:" ++ rest = asBytes "location" ++ 58 :: rest := rfl
    have parts := congrArg (cut 58) e
    rw [join, cut_append (by decide), cut_append colon] at parts
    exact (congrArg Prod.fst (Option.some.inj parts)).symm
  · intro e
    rw [e]
    exact ⟨_, rfl⟩

/-! ## Content that is sent as it is -/

/-- Without chunks the content is the payload. -/
lemma Response.Framed.content_eq {r : Response} (framed : r.Framed) (plain : ¬ r.framing.IsChunked) :
    r.content = r.payload := by
  unfold Response.Framed at framed
  unfold Response.content
  split
  · rename_i e
    rw [e] at framed
    exact framed.symm
  · rfl
  · rfl
  · rename_i e
    rw [e] at plain
    exact absurd trivial plain

/-- With chunks the content is longer than the payload. -/
lemma Response.Framed.payload_lt {r : Response} (framed : r.Framed) (chunked : r.framing.IsChunked) :
    r.payload.length < r.content.length := by
  have longer (cs : List Chunk) : (cs.flatMap Chunk.data).length ≤ (cs.flatMap Chunk.write).length := by
    induction cs with
    | nil => exact Nat.le_refl 0
    | cons c cs ih =>
      simp only [List.flatMap_cons, List.length_append, Chunk.write]
      omega
  unfold Response.Framed at framed
  cases e : r.framing with
  | chunked chunks last extensions trailers =>
    rw [e] at framed
    obtain ⟨-, -, data, -⟩ := framed
    have chunks_longer := longer chunks
    rw [Response.content, e, ← data]
    simp only [List.length_append, crlf, List.length_cons, List.length_nil]
    omega
  | _ =>
    rw [e] at chunked
    exact chunked.elim

end Net.Http
