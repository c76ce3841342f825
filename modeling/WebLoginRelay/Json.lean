import WebLoginRelay.Error
import WebLoginRelay.Text.Utf8

/-!
# Strict JSON

`src/json/strict.rs`: the value a strict parse yields. `Json` is what `serde_json` reports of a text
while it parses it: objects keep repeated keys, and a number is reported as a `u64`, as a negative
`i64`, or as a float. `strictValue` is the visitor that turns it into a `Value`: it rejects repeated
keys at every depth, floats, and integers above `i64::MAX`.
-/

namespace WebLoginRelay

/-- How `serde_json` reports a number literal. -/
inductive Number where
  | posInt (n : UInt64)
  | negInt (n : Int64)
  | float
  deriving DecidableEq, Repr

/-- A parsed text, before the strict visitor has seen it. -/
inductive Json where
  | null
  | bool (b : Bool)
  | num (n : Number)
  | str (s : String)
  | arr (items : List Json)
  | obj (fields : List (String × Json))

/-- A `serde_json::Value` whose numbers are all `i64`. -/
inductive Value where
  | null
  | bool (b : Bool)
  | int (n : Int64)
  | str (s : String)
  | arr (items : List Value)
  | obj (fields : List (String × Value))

namespace Json

/-- `Deserializer::end` accepts this input: only whitespace is left. -/
def isEnd (rest : String) : Bool := rest.toList.all fun c => c = ' ' || c = '\n' || c = '\t' || c = '\r'

/-- `StrictVisitor` on a number: `visit_u64`, `visit_i64`, `visit_f64`. -/
def strictNumber : Number → Option Value
  | .posInt n => if n.toNat ≤ 9223372036854775807 then some (.int n.toInt64) else none
  | .negInt n => some (.int n)
  | .float => none

mutual

/-- `StrictVisitor`. -/
def strictValue : Json → Option Value
  | .null => some .null
  | .bool b => some (.bool b)
  | .num n => strictNumber n
  | .str s => some (.str s)
  | .arr items => return .arr (← strictSeq items)
  | .obj fields => return .obj (← strictMap [] fields)

/-- `StrictVisitor::visit_seq`. -/
def strictSeq : List Json → Option (List Value)
  | [] => some []
  | j :: js => return (← strictValue j) :: (← strictSeq js)

/-- `StrictVisitor::visit_map`, with the keys seen so far. -/
def strictMap (seen : List String) : List (String × Json) → Option (List (String × Value))
  | [] => some []
  | (key, j) :: rest => do
    if key ∈ seen then none
    else
      let value ← strictValue j
      return (key, value) :: (← strictMap (key :: seen) rest)

end

end Json

namespace Value

/-- The fields of an object. -/
def fields? : Value → Option (List (String × Value))
  | .obj fields => some fields
  | _ => none

/-- `deny_unknown_fields`: no key outside `known`. -/
def onlyKnown (known : List String) (fields : List (String × Value)) : Bool :=
  fields.all fun f => f.1 ∈ known

/-- What a derived `Deserialize` takes for the fields of a struct: an object without unknown keys, or, as
`visit_seq`, an array of their values in order. -/
def structFields? (names : List String) : Value → Option (List (String × Value))
  | .obj fields => if onlyKnown names fields then some fields else none
  | .arr items => if items.length = names.length then some (names.zip items) else none
  | _ => none

/-- A required `String` field. -/
def strField (fields : List (String × Value)) (name : String) : Option String :=
  match fields.lookup name with
  | some (.str s) => some s
  | _ => none

/-- The variant of an enum with a tag: the value of the key `tag`, or the first item of an array. -/
def variant? (tag : String) : Value → Option String
  | .obj fields => strField fields tag
  | .arr (.str variant :: _) => some variant
  | _ => none

/-- A required `bool` field. -/
def boolField (fields : List (String × Value)) (name : String) : Option Bool :=
  match fields.lookup name with
  | some (.bool b) => some b
  | _ => none

/-- A required `i64` field. -/
def i64Field (fields : List (String × Value)) (name : String) : Option Int64 :=
  match fields.lookup name with
  | some (.int n) => some n
  | _ => none

/-- A required `i32` field. -/
def i32Field (fields : List (String × Value)) (name : String) : Option Int32 := do
  let n ← i64Field fields name
  if -2147483648 ≤ n.toInt ∧ n.toInt ≤ 2147483647 then some n.toInt32 else none

/-- An `Option<String>` field: a missing key is read as `None`. -/
def optStrField (fields : List (String × Value)) (name : String) : Option (Option String) :=
  match fields.lookup name with
  | none => some none
  | some .null => some none
  | some (.str s) => some (some s)
  | _ => none

/-- The JSON of an `Option<String>` field: `None` is printed as `null`. -/
def ofOptStr : Option String → Value
  | none => .null
  | some s => .str s

/-- Neither an array nor an object. -/
def isScalar : Value → Bool
  | .arr _ => false
  | .obj _ => false
  | _ => true

@[simp] lemma isScalar_bool (b : Bool) : (Value.bool b).isScalar = true := rfl

@[simp] lemma isScalar_int (n : Int64) : (Value.int n).isScalar = true := rfl

@[simp] lemma isScalar_str (s : String) : (Value.str s).isScalar = true := rfl

@[simp] lemma isScalar_ofOptStr (o : Option String) : (ofOptStr o).isScalar = true := by
  cases o <;> rfl

end Value

/-! ## Flat objects -/

namespace Json

/-- How `serde_json` reports a printed scalar. -/
def ofScalar : Value → Json
  | .bool b => .bool b
  | .int n => .num (if 0 ≤ n then .posInt n.toUInt64 else .negInt n)
  | .str s => .str s
  | _ => .null

/-- Every `i64` is printed as an integer the visitor accepts. -/
lemma strictNumber_int64 (n : Int64) :
    strictNumber (if 0 ≤ n then .posInt n.toUInt64 else .negInt n) = some (.int n) := by
  split
  · rename_i h
    have lt : n.toUInt64.toNat ≤ 9223372036854775807 := by
      rw [Int64.toNat_toUInt64_of_le h, Int64.toNatClampNeg]
      have := Int64.toInt_lt n
      omega
    simp [strictNumber, lt]
  · rfl

/-- A value without nesting is strict. -/
lemma strictValue_ofScalar {v : Value} (h : v.isScalar) : (ofScalar v).strictValue = some v := by
  cases v with
  | null => simp [ofScalar, strictValue]
  | bool b => simp [ofScalar, strictValue]
  | int n => simpa [ofScalar, strictValue] using strictNumber_int64 n
  | str s => simp [ofScalar, strictValue]
  | arr items => nomatch h
  | obj fields => nomatch h

/-- A flat object with distinct keys passes the strict visitor. -/
lemma strictMap_ofScalar {fields : List (String × Value)} {seen : List String}
    (nd : (fields.map Prod.fst).Nodup) (ns : ∀ f ∈ fields, f.1 ∉ seen)
    (sc : ∀ f ∈ fields, f.2.isScalar) :
    strictMap seen (fields.map fun f => (f.1, ofScalar f.2)) = some fields := by
  induction fields generalizing seen with
  | nil => simp [strictMap]
  | cons f fields ih =>
    obtain ⟨key, v⟩ := f
    simp only [List.map_cons, List.nodup_cons] at nd
    have rest : strictMap (key :: seen) (fields.map fun f => (f.1, ofScalar f.2)) = some fields := by
      refine ih nd.2 (fun g hg e => ?_) fun g hg => sc g (by simp [hg])
      obtain e | e := List.mem_cons.mp e
      · exact nd.1 (e ▸ List.mem_map_of_mem hg)
      · exact ns g (by simp [hg]) e
    have v' : (ofScalar v).strictValue = some v := strictValue_ofScalar (sc (key, v) (by simp))
    have nk : key ∉ seen := ns (key, v) (by simp)
    simp [strictMap, nk, v', rest]
end Json

end WebLoginRelay
