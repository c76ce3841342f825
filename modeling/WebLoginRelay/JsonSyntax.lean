import WebLoginRelay.Json

/-!
# Syntax trees of JSON

A JSON text as it is written: number literals with their fraction and exponent, string literals with
their escapes, objects with repeated keys. `report` is what `serde_json` reports of a text with this
tree, and `Denotes` is the value the tree stands for, independently of any parser.
-/

namespace WebLoginRelay

/-- How a character is written in a string literal. -/
inductive Spelling where
  | plain
  /-- Such as `\n`. -/
  | short
  /-- `\u` and four digits, twice for a surrogate pair. -/
  | unicode
  deriving DecidableEq, Repr

/-- A string literal. -/
abbrev StringLiteral := List (Spelling × Char)

/-- The string a literal stands for. -/
def StringLiteral.unescape (s : StringLiteral) : String := String.ofList (s.map Prod.snd)

/-- A number literal, with what follows the integer part as it is written. -/
structure NumberLiteral where
  negative : Bool
  integer : Nat
  fraction : Option String := none
  exponent : Option String := none
  deriving DecidableEq, Repr

namespace NumberLiteral
variable (n : NumberLiteral)

/-- No fraction, no exponent, and not a negative zero. -/
def IsInteger : Prop := n.fraction = none ∧ n.exponent = none ∧ ¬ (n.negative ∧ n.integer = 0)

instance : Decidable n.IsInteger :=
  inferInstanceAs (Decidable (n.fraction = none ∧ n.exponent = none ∧ ¬ (n.negative ∧ n.integer = 0)))

/-- The integer that is written. -/
def value : Int := if n.negative then -n.integer else n.integer

/-- What `serde_json` reports: an integer if it fits into 64 bits, and a float otherwise. -/
def report : Number :=
  if ¬ n.IsInteger then .float
  else if n.negative then
    if n.integer ≤ 9223372036854775808 then .negInt (Int64.ofInt n.value) else .float
  else if n.integer ≤ 18446744073709551615 then .posInt (UInt64.ofNat n.integer)
  else .float

end NumberLiteral

/-- A syntax tree. -/
inductive JsonSyntax where
  | null
  | bool (b : Bool)
  | num (n : NumberLiteral)
  | str (s : StringLiteral)
  | arr (items : List JsonSyntax)
  | obj (fields : List (StringLiteral × JsonSyntax))

namespace JsonSyntax

mutual

/-- What `serde_json` reports of a text with this tree. -/
def report : JsonSyntax → Json
  | .null => .null
  | .bool b => .bool b
  | .num n => .num n.report
  | .str s => .str s.unescape
  | .arr items => .arr (reportItems items)
  | .obj fields => .obj (reportFields fields)

/-- The items of an array, in order. -/
def reportItems : List JsonSyntax → List Json
  | [] => []
  | t :: ts => t.report :: reportItems ts

/-- The fields of an object, in order. -/
def reportFields : List (StringLiteral × JsonSyntax) → List (String × Json)
  | [] => []
  | (key, t) :: rest => (key.unescape, t.report) :: reportFields rest

end

mutual

/-- In every object the keys are distinct, and every number is an integer in the range of an `i64`. -/
def Strict : JsonSyntax → Prop
  | .num n => n.IsInteger ∧ -9223372036854775808 ≤ n.value ∧ n.value ≤ 9223372036854775807
  | .arr items => StrictItems items
  | .obj fields => (fields.map fun f => f.1.unescape).Nodup ∧ StrictFields fields
  | _ => True

/-- Every item of an array is strict. -/
def StrictItems : List JsonSyntax → Prop
  | [] => True
  | t :: ts => t.Strict ∧ StrictItems ts

/-- Every value of an object is strict. -/
def StrictFields : List (StringLiteral × JsonSyntax) → Prop
  | [] => True
  | (_, t) :: rest => t.Strict ∧ StrictFields rest

end

mutual

/-- The tree stands for this value. -/
def Denotes : JsonSyntax → Value → Prop
  | .null, .null => True
  | .bool b, .bool b' => b = b'
  | .num n, .int i => n.IsInteger ∧ n.value = i.toInt
  | .str s, .str s' => s.unescape = s'
  | .arr items, .arr values => DenotesItems items values
  | .obj fields, .obj values => DenotesFields fields values
  | _, _ => False

/-- The items of an array stand for these values, in order. -/
def DenotesItems : List JsonSyntax → List Value → Prop
  | [], [] => True
  | t :: ts, v :: vs => t.Denotes v ∧ DenotesItems ts vs
  | _, _ => False

/-- The fields of an object stand for these, in order. -/
def DenotesFields : List (StringLiteral × JsonSyntax) → List (String × Value) → Prop
  | [], [] => True
  | (key, t) :: rest, (key', v) :: vs => key.unescape = key' ∧ t.Denotes v ∧ DenotesFields rest vs
  | _, _ => False

end

mutual

/-- Some number is reported as a float. -/
def HasFloat : JsonSyntax → Prop
  | .num n => n.report = .float
  | .arr items => HasFloatItems items
  | .obj fields => HasFloatFields fields
  | _ => False

/-- Some item of an array has a float. -/
def HasFloatItems : List JsonSyntax → Prop
  | [] => False
  | t :: ts => t.HasFloat ∨ HasFloatItems ts

/-- Some value of an object has a float. -/
def HasFloatFields : List (StringLiteral × JsonSyntax) → Prop
  | [] => False
  | (_, t) :: rest => t.HasFloat ∨ HasFloatFields rest

end

end JsonSyntax

end WebLoginRelay
