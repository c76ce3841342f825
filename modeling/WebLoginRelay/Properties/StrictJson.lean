import WebLoginRelay.JsonSyntax
import WebLoginRelay.Samples.Crates

/-!
# The strict parse

The visitor of `strict.rs` accepts a syntax tree if and only if it is strict at every depth, and yields the
value the tree stands for. The proof follows the tree, as the visitor does.
-/

namespace WebLoginRelay
open Text

namespace NumberLiteral
variable {n : NumberLiteral}

/-- An integer literal in the range of an `i64`. -/
def InRange (n : NumberLiteral) : Prop :=
  n.IsInteger ∧ -9223372036854775808 ≤ n.value ∧ n.value ≤ 9223372036854775807

/-- A negative literal in the range is reported as its value. -/
lemma report_negative (int : n.IsInteger) (neg : n.negative = true) (le : n.integer ≤ 9223372036854775808) :
    n.report = .negInt (Int64.ofInt n.value) := by
  rw [report, if_neg (not_not.mpr int), if_pos neg, if_pos le]

/-- Another literal in the range is reported as its value. -/
lemma report_positive (int : n.IsInteger) (pos : ¬ n.negative = true) (le : n.integer ≤ 18446744073709551615) :
    n.report = .posInt (UInt64.ofNat n.integer) := by
  rw [report, if_neg (not_not.mpr int), if_neg pos, if_pos le]

/-- The visitor yields the value of a literal in the range. -/
lemma strict_of_inRange (h : n.InRange) :
    ∃ i : Int64, Json.strictNumber n.report = some (.int i) ∧ n.value = i.toInt := by
  obtain ⟨int, low, high⟩ := h
  by_cases neg : n.negative = true
  · have value : n.value = -n.integer := if_pos neg
    refine ⟨Int64.ofInt n.value, ?_, (Int64.toInt_ofInt_of_le (by omega) (by omega)).symm⟩
    rw [report_negative int neg (by omega), Json.strictNumber]
  · have value : n.value = n.integer := if_neg neg
    have back : (UInt64.ofNat n.integer).toNat = n.integer := by
      rw [UInt64.toNat_ofNat']
      omega
    refine ⟨(UInt64.ofNat n.integer).toInt64, ?_, ?_⟩
    · rw [report_positive int neg (by omega), Json.strictNumber, if_pos (by omega)]
    · rw [UInt64.toInt64_ofNat', Int64.toInt_ofNat_of_lt (by omega), value]

/-- The visitor refuses any other literal. -/
lemma inRange_of_strict {v : Value} (h : Json.strictNumber n.report = some v) : n.InRange := by
  by_cases int : n.IsInteger
  · by_cases neg : n.negative = true
    · have value : n.value = -n.integer := if_pos neg
      by_cases le : n.integer ≤ 9223372036854775808
      · exact ⟨int, by omega, by omega⟩
      · rw [report, if_neg (not_not.mpr int), if_pos neg, if_neg le] at h
        cases h
    · have value : n.value = n.integer := if_neg neg
      by_cases le : n.integer ≤ 18446744073709551615
      · rw [report_positive int neg le, Json.strictNumber] at h
        have back : (UInt64.ofNat n.integer).toNat = n.integer := by
          rw [UInt64.toNat_ofNat']
          omega
        split at h
        · exact ⟨int, by omega, by omega⟩
        · cases h
      · rw [report, if_neg (not_not.mpr int), if_neg neg, if_neg le] at h
        cases h
  · rw [report, if_pos int] at h
    cases h

/-- A literal that is reported as a float is not in the range. -/
lemma not_inRange_of_float (h : n.report = .float) : ¬ n.InRange := fun range => by
  obtain ⟨_, e, _⟩ := strict_of_inRange range
  rw [h] at e
  nomatch e

end NumberLiteral

namespace JsonSyntax
open Json

/-! ## What the visitor accepts -/

mutual

/-- What the visitor yields is what the tree stands for. -/
lemma denotes_of_strictValue : ∀ {t : JsonSyntax} {v : Value}, t.report.strictValue = some v →
    t.Strict ∧ t.Denotes v
  | .null, v, h => by
    cases h
    exact ⟨trivial, trivial⟩
  | .bool b, v, h => by
    cases h
    exact ⟨trivial, rfl⟩
  | .num n, v, h => by
    have range := n.inRange_of_strict h
    obtain ⟨i, e, value⟩ := n.strict_of_inRange range
    cases h.symm.trans e
    exact ⟨range, range.1, value⟩
  | .str s, v, h => by
    cases h
    exact ⟨trivial, rfl⟩
  | .arr items, v, h => by
    obtain ⟨vs, e, rfl⟩ : ∃ vs, strictSeq (reportItems items) = some vs ∧ .arr vs = v := by
      simpa [report, strictValue, Option.bind_eq_some_iff] using h
    exact denotes_of_strictSeq e
  | .obj fields, v, h => by
    obtain ⟨vs, e, rfl⟩ : ∃ vs, strictMap [] (reportFields fields) = some vs ∧ .obj vs = v := by
      simpa [report, strictValue, Option.bind_eq_some_iff] using h
    obtain ⟨_, nodup, strict, denotes⟩ := denotes_of_strictMap e
    exact ⟨⟨nodup, strict⟩, denotes⟩

/-- The same for the items of an array. -/
lemma denotes_of_strictSeq : ∀ {ts : List JsonSyntax} {vs : List Value},
    strictSeq (reportItems ts) = some vs → StrictItems ts ∧ DenotesItems ts vs
  | [], vs, h => by
    cases h
    exact ⟨trivial, trivial⟩
  | t :: ts, vs, h => by
    obtain ⟨v, e, ws, es, rfl⟩ : ∃ v, t.report.strictValue = some v ∧ ∃ ws,
        strictSeq (reportItems ts) = some ws ∧ v :: ws = vs := by
      simpa [reportItems, strictSeq, Option.bind_eq_some_iff] using h
    obtain ⟨strict, denotes⟩ := denotes_of_strictValue e
    obtain ⟨stricts, denoted⟩ := denotes_of_strictSeq es
    exact ⟨⟨strict, stricts⟩, denotes, denoted⟩

/-- The same for the fields of an object, whose keys are new and distinct. -/
lemma denotes_of_strictMap : ∀ {seen : List String} {fs : List (StringLiteral × JsonSyntax)}
    {vs : List (String × Value)}, strictMap seen (reportFields fs) = some vs →
    (∀ f ∈ fs, f.1.unescape ∉ seen) ∧ (fs.map fun f => f.1.unescape).Nodup ∧ StrictFields fs ∧
      DenotesFields fs vs
  | seen, [], vs, h => by
    cases h
    exact ⟨nofun, .nil, trivial, trivial⟩
  | seen, (key, t) :: fs, vs, h => by
    obtain ⟨new, v, e, ws, es, rfl⟩ : key.unescape ∉ seen ∧ ∃ v, t.report.strictValue = some v ∧ ∃ ws,
        strictMap (key.unescape :: seen) (reportFields fs) = some ws ∧ (key.unescape, v) :: ws = vs := by
      simp only [reportFields, strictMap] at h
      split at h
      · nomatch h
      · exact ⟨‹_›, by simpa [Option.bind_eq_some_iff] using h⟩
    obtain ⟨strict, denotes⟩ := denotes_of_strictValue e
    obtain ⟨news, nodup, stricts, denoted⟩ := denotes_of_strictMap es
    refine ⟨fun f hf => ?_, List.nodup_cons.mpr ⟨fun mem => ?_, nodup⟩, ⟨strict, stricts⟩, rfl, denotes, denoted⟩
    · obtain rfl | hf := List.mem_cons.mp hf
      · exact new
      · exact fun mem => news f hf (List.mem_cons_of_mem _ mem)
    · obtain ⟨f, hf, same⟩ := List.mem_map.mp mem
      exact news f hf (same ▸ List.mem_cons_self ..)

end

mutual

/-- The visitor accepts a strict tree. -/
lemma strictValue_of_strict : ∀ {t : JsonSyntax}, t.Strict → ∃ v, t.report.strictValue = some v
  | .null, _ => ⟨_, rfl⟩
  | .bool _, _ => ⟨_, rfl⟩
  | .num n, h => by
    obtain ⟨i, e, _⟩ := n.strict_of_inRange h
    exact ⟨_, e⟩
  | .str _, _ => ⟨_, rfl⟩
  | .arr items, h => by
    obtain ⟨vs, e⟩ := strictSeq_of_strict h
    exact ⟨.arr vs, by simp [report, strictValue, e]⟩
  | .obj fields, ⟨nodup, h⟩ => by
    obtain ⟨vs, e⟩ := strictMap_of_strict (fun _ _ => List.not_mem_nil) nodup h
    exact ⟨.obj vs, by simp [report, strictValue, e]⟩

/-- The same for the items of an array. -/
lemma strictSeq_of_strict : ∀ {ts : List JsonSyntax}, StrictItems ts →
    ∃ vs, strictSeq (reportItems ts) = some vs
  | [], _ => ⟨[], rfl⟩
  | t :: ts, ⟨h, hs⟩ => by
    obtain ⟨v, e⟩ := strictValue_of_strict h
    obtain ⟨vs, es⟩ := strictSeq_of_strict hs
    exact ⟨v :: vs, by simp [reportItems, strictSeq, e, es]⟩

/-- The same for the fields of an object. -/
lemma strictMap_of_strict : ∀ {seen : List String} {fs : List (StringLiteral × JsonSyntax)},
    (∀ f ∈ fs, f.1.unescape ∉ seen) → (fs.map fun f => f.1.unescape).Nodup → StrictFields fs →
    ∃ vs, strictMap seen (reportFields fs) = some vs
  | _, [], _, _, _ => ⟨[], rfl⟩
  | seen, (key, t) :: fs, new, nodup, ⟨h, hs⟩ => by
    obtain ⟨fresh, nodup⟩ := List.nodup_cons.mp nodup
    obtain ⟨v, e⟩ := strictValue_of_strict h
    have news (f) (hf : f ∈ fs) : f.1.unescape ∉ key.unescape :: seen := fun mem => by
      obtain same | mem := List.mem_cons.mp mem
      · exact fresh (List.mem_map.mpr ⟨f, hf, same⟩)
      · exact new f (List.mem_cons_of_mem _ hf) mem
    obtain ⟨vs, es⟩ := strictMap_of_strict news nodup hs
    have notSeen : key.unescape ∉ seen := new (key, t) (List.mem_cons_self ..)
    exact ⟨(key.unescape, v) :: vs, by simp [reportFields, strictMap, notSeen, e, es]⟩

end

mutual

/-- A tree with a float is not strict. -/
lemma not_strict_of_float : ∀ {t : JsonSyntax}, t.HasFloat → ¬ t.Strict
  | .num n, h => n.not_inRange_of_float h
  | .arr _, h => not_strictItems_of_float h
  | .obj _, h => fun strict => not_strictFields_of_float h strict.2

/-- The same for the items of an array. -/
lemma not_strictItems_of_float : ∀ {ts : List JsonSyntax}, HasFloatItems ts → ¬ StrictItems ts
  | _ :: _, .inl h => fun strict => not_strict_of_float h strict.1
  | _ :: _, .inr h => fun strict => not_strictItems_of_float h strict.2

/-- The same for the fields of an object. -/
lemma not_strictFields_of_float : ∀ {fs : List (StringLiteral × JsonSyntax)}, HasFloatFields fs →
    ¬ StrictFields fs
  | _ :: _, .inl h => fun strict => not_strict_of_float h strict.1
  | _ :: _, .inr h => fun strict => not_strictFields_of_float h strict.2

end

mutual

/-- A tree stands for one value. -/
lemma Denotes.unique : ∀ {t : JsonSyntax} {v w : Value}, t.Denotes v → t.Denotes w → v = w
  | .null, .null, .null, _, _ => rfl
  | .bool _, .bool _, .bool _, h, h' => congrArg _ (h.symm.trans h')
  | .num _, .int _, .int _, h, h' => congrArg _ (Int64.toInt_inj.mp (h.2.symm.trans h'.2))
  | .str _, .str _, .str _, h, h' => congrArg _ (h.symm.trans h')
  | .arr _, .arr _, .arr _, h, h' => congrArg _ (DenotesItems.unique h h')
  | .obj _, .obj _, .obj _, h, h' => congrArg _ (DenotesFields.unique h h')

/-- The same for the items of an array. -/
lemma DenotesItems.unique : ∀ {ts : List JsonSyntax} {vs ws : List Value}, DenotesItems ts vs →
    DenotesItems ts ws → vs = ws
  | [], [], [], _, _ => rfl
  | _ :: _, _ :: _, _ :: _, h, h' => List.cons_eq_cons.mpr ⟨h.1.unique h'.1, DenotesItems.unique h.2 h'.2⟩

/-- The same for the fields of an object. -/
lemma DenotesFields.unique : ∀ {fs : List (StringLiteral × JsonSyntax)} {vs ws : List (String × Value)},
    DenotesFields fs vs → DenotesFields fs ws → vs = ws
  | [], [], [], _, _ => rfl
  | _ :: _, _ :: _, _ :: _, h, h' =>
    List.cons_eq_cons.mpr ⟨Prod.ext (h.1.symm.trans h'.1) (h.2.1.unique h'.2.1), DenotesFields.unique h.2.2 h'.2.2⟩

end

end JsonSyntax

/-! ## Texts -/

/-- `serde_json` reads this tree at the start of the input: it reports the tree as it is written, or
refuses a number that no float represents. -/
def Crates.Reads (X : Crates) (text : String) (t : JsonSyntax) (rest : String) : Prop :=
  X.jsonValue text = some (t.report, rest) ∨ (X.jsonValue text = none ∧ t.HasFloat)

/-- A text is parsed if and only if its tree is strict, into the value the tree stands for; and no text is
accepted that goes on after it. -/
theorem strict_parse_iff (X : Crates) {text rest : String} {t : JsonSyntax} (reads : X.Reads text t rest) :
    ((∃ v rest', strictDeserialize X text = some (v, rest')) ↔ t.Strict) ∧
    (∀ v rest', strictDeserialize X text = some (v, rest') →
      t.Denotes v ∧ (∀ w, t.Denotes w → w = v) ∧ rest' = rest) ∧
    (Json.isEnd rest = false → ∀ (α : Type) (fromValue : Value → Option α),
      strictFromStr X fromValue text = fail .invalidRequest) := by
  obtain reported | ⟨refused, float⟩ := reads
  · have run : strictDeserialize X text = t.report.strictValue.map fun v => (v, rest) := by
      simp only [strictDeserialize, reported, Option.bind_eq_bind, Option.bind_some]
      cases t.report.strictValue <;> rfl
    have parsed {v rest'} (e : strictDeserialize X text = some (v, rest')) :
        t.report.strictValue = some v ∧ rest = rest' := by
      rw [run] at e
      simpa using e
    refine ⟨⟨fun ⟨v, rest', e⟩ => (JsonSyntax.denotes_of_strictValue (parsed e).1).1, fun strict => ?_⟩,
      fun v rest' e => ?_, fun goesOn α fromValue => ?_⟩
    · obtain ⟨v, e⟩ := JsonSyntax.strictValue_of_strict strict
      exact ⟨v, rest, by rw [run, e]; rfl⟩
    · obtain ⟨_, denotes⟩ := JsonSyntax.denotes_of_strictValue (parsed e).1
      exact ⟨denotes, fun w h => h.unique denotes, (parsed e).2.symm⟩
    · rw [strictFromStr, run]
      cases t.report.strictValue with
      | none => rfl
      | some v => simp [goesOn]
  · have run : strictDeserialize X text = none := by simp [strictDeserialize, refused]
    refine ⟨⟨fun ⟨_, _, e⟩ => ?_, fun strict => ?_⟩, fun _ _ e => ?_, fun _ _ _ => ?_⟩
    · nomatch run.symm.trans e
    · exact absurd strict (JsonSyntax.not_strict_of_float float)
    · nomatch run.symm.trans e
    · rw [strictFromStr, run]

/-- Two fields. -/
def Sample.fields : List (String × Value) := [("a", .int (-7)), ("b", .bool true)]

/-- The tree of their object. -/
def Sample.tree : JsonSyntax :=
  .obj [([(.plain, 'a')], .num ⟨true, 7, none, none⟩), ([(.plain, 'b')], .bool true)]

/-- The text of this object. -/
theorem strict_parse_sample : ∃ v rest,
    strictDeserialize .stub (String.ofList (JsonText.print (.obj Sample.fields))) = some (v, rest) := by
  have number : (NumberLiteral.mk true 7 none none).report = .negInt (-7) := by decide
  have printed := @JsonText.parse_print Sample.fields (by simp [Sample.fields])
  have same : Json.obj (Sample.fields.map fun f => (f.1, Json.ofScalar f.2)) = Sample.tree.report := by
    have negative : ¬ (0 : Int64) ≤ -7 := by decide
    have a : String.ofList ['a'] = "a" := rfl
    have b : String.ofList ['b'] = "b" := rfl
    simp only [Sample.tree, Sample.fields, JsonSyntax.report, JsonSyntax.reportFields, StringLiteral.unescape,
      Json.ofScalar, number, List.map_cons, List.map_nil]
    rw [if_neg negative, a, b]
  rw [same] at printed
  have reads : Crates.stub.Reads (String.ofList (JsonText.print (.obj Sample.fields))) Sample.tree "" := by
    have parser : Crates.stub.jsonValue = JsonText.parse := rfl
    exact .inl (parser ▸ printed)
  refine (strict_parse_iff .stub reads).1.mpr ⟨?_, ⟨?_, trivial, trivial⟩⟩
  · decide
  · exact ⟨by decide, by decide, by decide⟩

end WebLoginRelay
