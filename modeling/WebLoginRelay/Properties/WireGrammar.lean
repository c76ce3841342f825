import WebLoginRelay.Properties.ConsentSignature
import WebLoginRelay.Properties.DomainNames
import WebLoginRelay.Properties.NameLimits
import WebLoginRelay.Properties.RoundTrip

/-!
# The grammar of the messages of a phone

The bodies the documents describe are stated over the JSON they carry, without the decoder: a schema is a
list of keys with what their values have to be. `matrix::decode` accepts these bodies, and two kinds more,
because a missing `Option` is read as `None`, and because `serde` reads a struct from an array as well.
-/

namespace WebLoginRelay
open Text

/-- What the value of a key has to be. -/
inductive FieldType where
  | text (ok : String → Prop)
  /-- An integer in the range of an `i64`. -/
  | integer
  | truth (b : Bool)
  | null
  | nullable (ok : String → Prop)

/-- The JSON value is one of this type. -/
def FieldType.Admits : FieldType → Json → Prop
  | .text ok, .str s => ok s
  | .integer, .num (.posInt n) => n.toNat ≤ 9223372036854775807
  | .integer, .num (.negInt _) => True
  | .truth b, .bool b' => b' = b
  | .null, .null => True
  | .nullable _, .null => True
  | .nullable ok, .str s => ok s
  | _, _ => False

/-- The keys of an object, with the types of their values. -/
abbrev Schema := List (String × FieldType)

namespace Schema

/-- The keys. -/
def keys (schema : Schema) : List String := schema.map Prod.fst

/-- The schema without a key. -/
def without (schema : Schema) (key : String) : Schema := schema.filter (·.1 ≠ key)

/-- The object has exactly these keys, each once, with values of their types. -/
def Accepts (schema : Schema) (fields : List (String × Json)) : Prop :=
  (fields.map Prod.fst).Perm schema.keys ∧
    ∀ key type, (key, type) ∈ schema → ∀ json, (key, json) ∈ fields → type.Admits json

/-- The array has the values of the keys, in the order of the schema. -/
def AcceptsItems (schema : Schema) (items : List Json) : Prop :=
  List.Forall₂ (fun f json => f.2.Admits json) schema items

end Schema

/-- `[A-Za-z0-9_-]{lo,hi}`. -/
def urlSafeText (lo hi : Nat) : FieldType :=
  .text fun s => lo ≤ s.length ∧ s.length ≤ hi ∧ ∀ c ∈ s.toList, isUrlSafe c

/-- The first keys of every message. -/
def messageSchema (kind : String) : Schema :=
  [("kind", .text (· = kind)), ("sessionId", urlSafeText 16 128), ("nonce", urlSafeText 16 128), ("sentAt", .integer)]

/-- The schema of a Request. -/
def requestSchema : Schema := messageSchema "request" ++ [("domain", .text IsDomainName)]

/-- The schema of a Consent. -/
def consentSchema (approved : Bool) (displayName : FieldType) : Schema :=
  messageSchema "consent" ++
    [("approved", .truth approved), ("displayName", displayName), ("challenge", urlSafeText 16 512),
      ("keyId", .text fun s => startsWith s "did:" ∧ len s ≤ 512), ("signature", urlSafeText 86 86)]

/-- The schema of an approved Consent. -/
def approvedSchema : Schema := consentSchema true (.text fun s => s ≠ "" ∧ len s ≤ 100)

/-- The schema of a refused Consent. -/
def refusedSchema : Schema := consentSchema false .null

/-- The schema of a Revocation. -/
def revocationSchema : Schema :=
  messageSchema "revocation" ++ [("siteAccountId", urlSafeText 22 128), ("reason", .nullable fun s => len s ≤ 100)]

/-- The messages of a phone. -/
def inboundSchemas : List Schema := [requestSchema, approvedSchema, refusedSchema, revocationSchema]

/-- The body is the prefix and the base64url of at most 32768 bytes, the UTF-8 of this JSON. -/
def Carries (X : Crates) (body : String) (json : Json) : Prop :=
  ∃ bytes text, body = matrixPrefix ++ Base64url.encode X bytes ∧ bytes.length ≤ 32768 ∧
    asBytes text = bytes ∧ X.jsonParse text = some json

/-- A message of the documents, with all its keys. The patterns and limits of its texts are those of the validators
(`src/protocol/validation.rs`). -/
def Documented (X : Crates) (body : String) : Prop :=
  ∃ fields, Carries X body (.obj fields) ∧ ∃ schema ∈ inboundSchemas, schema.Accepts fields

/-- The other bodies the relay takes: a nullable key is missing, or the message is an array. -/
def Lenient (X : Crates) (body : String) : Prop :=
  (∃ fields, Carries X body (.obj fields) ∧
    ((refusedSchema.without "displayName").Accepts fields ∨ (revocationSchema.without "reason").Accepts fields)) ∨
  ∃ items, Carries X body (.arr items) ∧ ∃ schema ∈ inboundSchemas, schema.AcceptsItems items

/-! ## Values -/

namespace FieldType
variable {type : FieldType} {json : Json} {v : Value}

/-- The value is one of this type. -/
def Takes : FieldType → Value → Prop
  | .text ok, .str s => ok s
  | .integer, .int _ => True
  | .truth b, .bool b' => b' = b
  | .null, .null => True
  | .nullable _, .null => True
  | .nullable ok, .str s => ok s
  | _, _ => False

/-- A value of a type passes the strict visitor. -/
lemma Admits.strict (h : type.Admits json) : ∃ v, json.strictValue = some v ∧ type.Takes v := by
  cases type with
  | text ok =>
    cases json with
    | str s => exact ⟨.str s, by simp [Json.strictValue], h⟩
    | _ => exact h.elim
  | integer =>
    cases json with
    | num n =>
      cases n with
      | posInt n =>
        have le : n.toNat ≤ 9223372036854775807 := h
        exact ⟨.int n.toInt64, by simp [Json.strictValue, Json.strictNumber, le], trivial⟩
      | negInt n => exact ⟨.int n, by simp [Json.strictValue, Json.strictNumber], trivial⟩
      | float => exact h.elim
    | _ => exact h.elim
  | truth b =>
    cases json with
    | bool b' => exact ⟨.bool b', by simp [Json.strictValue], h⟩
    | _ => exact h.elim
  | null =>
    cases json with
    | null => exact ⟨.null, by simp [Json.strictValue], h⟩
    | _ => exact h.elim
  | nullable ok =>
    cases json with
    | null => exact ⟨.null, by simp [Json.strictValue], h⟩
    | str s => exact ⟨.str s, by simp [Json.strictValue], h⟩
    | _ => exact h.elim

/-- What the visitor yields is of the type of the JSON value. -/
lemma Takes.admits (e : json.strictValue = some v) (h : type.Takes v) : type.Admits json := by
  cases json with
  | null =>
    obtain rfl : Value.null = v := by simpa [Json.strictValue] using e
    cases type with
    | null => trivial
    | nullable ok => trivial
    | _ => exact h.elim
  | bool b =>
    obtain rfl : Value.bool b = v := by simpa [Json.strictValue] using e
    cases type with
    | truth b' => exact h
    | _ => exact h.elim
  | num n =>
    have number : Json.strictNumber n = some v := by simpa [Json.strictValue] using e
    cases n with
    | posInt n =>
      rw [Json.strictNumber] at number
      split at number
      · rename_i le
        cases number
        cases type with
        | integer => exact le
        | _ => exact h.elim
      · cases number
    | negInt n =>
      cases number
      cases type with
      | integer => trivial
      | _ => exact h.elim
    | float => cases number
  | str s =>
    obtain rfl : Value.str s = v := by simpa [Json.strictValue] using e
    cases type with
    | text ok => exact h
    | nullable ok => exact h
    | _ => exact h.elim
  | arr items =>
    obtain ⟨vs, _, rfl⟩ : ∃ vs, Json.strictSeq items = some vs ∧ .arr vs = v := by
      simpa [Json.strictValue, Option.bind_eq_some_iff] using e
    cases type <;> exact h.elim
  | obj fields =>
    obtain ⟨vs, _, rfl⟩ : ∃ vs, Json.strictMap [] fields = some vs ∧ .obj vs = v := by
      simpa [Json.strictValue, Option.bind_eq_some_iff] using e
    cases type <;> exact h.elim

end FieldType

/-- The visitor on a map: the keys are new and distinct, and it visits every value. -/
lemma Json.strictMap_iff {seen : List String} {fields : List (String × Json)} {vs : List (String × Value)} :
    strictMap seen fields = some vs ↔ (∀ f ∈ fields, f.1 ∉ seen) ∧ (fields.map Prod.fst).Nodup ∧
      List.Forall₂ (fun f v => f.1 = v.1 ∧ f.2.strictValue = some v.2) fields vs := by
  induction fields generalizing seen vs with
  | nil => simp [strictMap, eq_comm]
  | cons f fields ih =>
    obtain ⟨key, j⟩ := f
    simp only [strictMap, Option.bind_eq_bind, Option.pure_def]
    constructor
    · intro h
      split at h
      · cases h
      rename_i new
      simp only [Option.bind_eq_some_iff, Option.some.injEq] at h
      obtain ⟨v, hv, ws, hw, rfl⟩ := h
      obtain ⟨others, nodup, all⟩ := ih.mp hw
      refine ⟨?_, ?_, .cons ⟨rfl, hv⟩ all⟩
      · intro f hf
        obtain rfl | hf := List.mem_cons.mp hf
        · exact new
        · exact fun seen' => others f hf (List.mem_cons_of_mem key seen')
      · refine List.nodup_cons.mpr ⟨?_, nodup⟩
        intro again
        obtain ⟨f, hf, e⟩ := List.mem_map.mp again
        exact others f hf (e ▸ List.mem_cons_self)
    · rintro ⟨new, nodup, all⟩
      obtain ⟨first, others⟩ := List.forall_mem_cons.mp new
      obtain ⟨fresh, nodup⟩ := List.nodup_cons.mp nodup
      cases all with
      | @cons _ v _ ws hv all =>
        obtain ⟨key', v⟩ := v
        obtain ⟨rfl, hv⟩ := hv
        have rest : strictMap (key :: seen) fields = some ws := by
          refine ih.mpr ⟨?_, nodup, all⟩
          intro f hf seen'
          obtain e | seen' := List.mem_cons.mp seen'
          · exact fresh (List.mem_map.mpr ⟨f, hf, e⟩)
          · exact others f hf seen'
        rw [if_neg first]
        simp [hv, rest]

/-- The visitor on a sequence visits every item. -/
lemma Json.strictSeq_iff {items : List Json} {vs : List Value} :
    strictSeq items = some vs ↔ List.Forall₂ (fun j v => j.strictValue = some v) items vs := by
  induction items generalizing vs with
  | nil => simp [strictSeq, eq_comm]
  | cons j items ih =>
    simp only [strictSeq, Option.bind_eq_bind, Option.pure_def, Option.bind_eq_some_iff, Option.some.injEq]
    constructor
    · rintro ⟨v, hv, ws, hw, rfl⟩
      exact .cons hv (ih.mp hw)
    · intro all
      cases all with
      | @cons _ v _ ws hv all => exact ⟨v, hv, ws, ih.mpr all, rfl⟩

/-- The value of a key that occurs once. -/
lemma lookup_of_mem {fields : List (String × Value)} {key : String} {v : Value}
    (nodup : (fields.map Prod.fst).Nodup) (h : (key, v) ∈ fields) : fields.lookup key = some v := by
  induction fields with
  | nil => nomatch h
  | cons f fields ih =>
    obtain ⟨new, nodup⟩ := List.nodup_cons.mp nodup
    obtain rfl | h := List.mem_cons.mp h
    · exact List.lookup_cons_self
    · have ne : (key == f.1) = false := by
        refine beq_eq_false_iff_ne.mpr ?_
        rintro rfl
        exact new (List.mem_map.mpr ⟨_, h, rfl⟩)
      rw [List.lookup_cons, ne]
      exact ih nodup h

/-- A key that is found is one of the fields. -/
lemma mem_of_lookup {fields : List (String × Value)} {key : String} {v : Value}
    (h : fields.lookup key = some v) : (key, v) ∈ fields := by
  obtain ⟨before, after, rfl, _⟩ := List.lookup_eq_some_iff.mp h
  simp

/-- Both sides of a relation between lists have a counterpart. -/
lemma forall₂_mem {α β : Type} {R : α → β → Prop} {as : List α} {bs : List β} (h : List.Forall₂ R as bs) :
    (∀ a ∈ as, ∃ b ∈ bs, R a b) ∧ ∀ b ∈ bs, ∃ a ∈ as, R a b := by
  induction h with
  | nil => exact ⟨nofun, nofun⟩
  | @cons a b as bs first _ ih =>
    constructor
    · refine List.forall_mem_cons.mpr ⟨⟨b, List.mem_cons_self, first⟩, fun a' ha' => ?_⟩
      obtain ⟨b', hb', r⟩ := ih.1 a' ha'
      exact ⟨b', List.mem_cons_of_mem b hb', r⟩
    · refine List.forall_mem_cons.mpr ⟨⟨a, List.mem_cons_self, first⟩, fun b' hb' => ?_⟩
      obtain ⟨a', ha', r⟩ := ih.2 b' hb'
      exact ⟨a', List.mem_cons_of_mem a ha', r⟩

/-- A counterpart for every element makes a list of counterparts. -/
lemma exists_forall₂ {α β : Type} {R : α → β → Prop} {as : List α} (h : ∀ a ∈ as, ∃ b, R a b) :
    ∃ bs, List.Forall₂ R as bs := by
  induction as with
  | nil => exact ⟨[], .nil⟩
  | cons a as ih =>
    obtain ⟨⟨b, first⟩, rest⟩ := List.forall_mem_cons.mp h
    obtain ⟨bs, all⟩ := ih rest
    exact ⟨b :: bs, .cons first all⟩

namespace Schema
variable {schema : Schema} {key : String} {f : List (String × Value)}

/-- Every key of the schema has a value of its type. -/
def Reads (schema : Schema) (f : List (String × Value)) : Prop :=
  ∀ key type, (key, type) ∈ schema → ∃ v, f.lookup key = some v ∧ type.Takes v

/-- An object is accepted if the strict visitor accepts it, it has no other keys, and every key has its
value. -/
lemma accepts_iff (nodup : schema.keys.Nodup) {fields : List (String × Json)} : schema.Accepts fields ↔
    ∃ vs, Json.strictMap [] fields = some vs ∧ Value.onlyKnown schema.keys vs ∧ schema.Reads vs := by
  constructor
  · rintro ⟨keys, types⟩
    have strict (g : String × Json) (hg : g ∈ fields) :
        ∃ w : String × Value, g.1 = w.1 ∧ g.2.strictValue = some w.2 := by
      obtain ⟨⟨key, type⟩, typed, e⟩ := List.mem_map.mp (keys.mem_iff.mp (List.mem_map_of_mem hg))
      obtain rfl : key = g.1 := e
      obtain ⟨v, hv, _⟩ := (types _ type typed g.2 hg).strict
      exact ⟨(g.1, v), rfl, hv⟩
    obtain ⟨vs, all⟩ := exists_forall₂ strict
    have parsed : Json.strictMap [] fields = some vs :=
      Json.strictMap_iff.mpr ⟨fun _ _ => List.not_mem_nil, keys.nodup_iff.mpr nodup, all⟩
    have same : vs.map Prod.fst = fields.map Prod.fst := by
      clear parsed strict types keys
      induction all with
      | nil => rfl
      | cons first _ ih => rw [List.map_cons, List.map_cons, ih, first.1]
    have nodup_vs : (vs.map Prod.fst).Nodup := same ▸ keys.nodup_iff.mpr nodup
    refine ⟨vs, parsed, ?_, ?_⟩
    · refine List.all_eq_true.mpr fun w hw => decide_eq_true ?_
      have mem : w.1 ∈ vs.map Prod.fst := List.mem_map_of_mem hw
      rw [same] at mem
      exact keys.mem_iff.mp mem
    · intro key type typed
      have mem : key ∈ fields.map Prod.fst := keys.mem_iff.mpr (List.mem_map.mpr ⟨_, typed, rfl⟩)
      obtain ⟨g, hg, rfl⟩ := List.mem_map.mp mem
      obtain ⟨v, hv, takes⟩ := (types _ type typed g.2 hg).strict
      obtain ⟨⟨key', v'⟩, hw, e, hv'⟩ := (forall₂_mem all).1 g hg
      obtain rfl : g.1 = key' := e
      obtain rfl : v = v' := Option.some.inj (hv.symm.trans hv')
      exact ⟨v, lookup_of_mem nodup_vs hw, takes⟩
  · rintro ⟨vs, parsed, known, reads⟩
    obtain ⟨_, nodup_fields, all⟩ := Json.strictMap_iff.mp parsed
    refine ⟨(List.perm_ext_iff_of_nodup nodup_fields nodup).mpr fun key => ⟨fun h => ?_, fun h => ?_⟩, ?_⟩
    · obtain ⟨g, hg, rfl⟩ := List.mem_map.mp h
      obtain ⟨w, hw, e, _⟩ := (forall₂_mem all).1 g hg
      have member := List.all_eq_true.mp known w hw
      rw [e]
      exact of_decide_eq_true member
    · obtain ⟨⟨key', type⟩, typed, e⟩ := List.mem_map.mp h
      obtain rfl : key' = key := e
      obtain ⟨v, found, _⟩ := reads _ type typed
      obtain ⟨g, hg, e, _⟩ := (forall₂_mem all).2 _ (mem_of_lookup found)
      exact List.mem_map.mpr ⟨g, hg, e⟩
    · intro key type typed json hj
      obtain ⟨v, found, takes⟩ := reads key type typed
      -- the key occurs once, so its JSON value is the one that was visited
      obtain ⟨g, hg, e, hv⟩ := (forall₂_mem all).2 _ (mem_of_lookup found)
      have same : g = (key, json) := List.inj_on_of_nodup_map nodup_fields hg hj e
      subst same
      exact takes.admits hv

/-- The keys without one of them. -/
lemma keys_without : (schema.without key).keys = schema.keys.filter (· ≠ key) := by
  induction schema with
  | nil => rfl
  | cons f schema ih =>
    by_cases h : f.1 = key
    · simpa [keys, without, h] using ih
    · simpa [keys, without, h] using ih

/-- No key is unknown to the schema without a key if none is unknown and the key is missing. -/
lemma onlyKnown_without : Value.onlyKnown (schema.without key).keys f ↔
    Value.onlyKnown schema.keys f ∧ f.lookup key = none := by
  rw [keys_without, List.lookup_eq_none_iff]
  simp only [Value.onlyKnown, List.all_eq_true, decide_eq_true_eq, List.mem_filter, bne_iff_ne]
  constructor
  · intro h
    exact ⟨fun g hg => (h g hg).1, fun g hg => Ne.symm (h g hg).2⟩
  · rintro ⟨known, missing⟩ g hg
    exact ⟨known g hg, Ne.symm (missing g hg)⟩

/-- An array under the keys has its values in their order. -/
lemma reads_zip (nodup : schema.keys.Nodup) {vs : List Value} (length : vs.length = schema.keys.length) :
    schema.Reads (schema.keys.zip vs) ↔ List.Forall₂ (fun g v => g.2.Takes v) schema vs := by
  induction schema generalizing vs with
  | nil =>
    obtain rfl := List.length_eq_zero_iff.mp length
    exact ⟨fun _ => .nil, fun _ => nofun⟩
  | cons g schema ih =>
    obtain ⟨new, nodup⟩ := List.nodup_cons.mp nodup
    cases vs with
    | nil => nomatch length
    | cons v vs =>
      have length : vs.length = (keys schema).length := Nat.succ.inj length
      have skip {key type} (typed : (key, type) ∈ schema) :
          List.lookup key ((g.1, v) :: (keys schema).zip vs) = List.lookup key ((keys schema).zip vs) := by
        have ne : (key == g.1) = false := by
          refine beq_eq_false_iff_ne.mpr ?_
          rintro rfl
          exact new (List.mem_map.mpr ⟨_, typed, rfl⟩)
        rw [List.lookup_cons, ne]
      constructor
      · intro reads
        refine .cons ?_ ((ih nodup length).mp ?_)
        · obtain ⟨w, found, takes⟩ := reads g.1 g.2 List.mem_cons_self
          obtain rfl : v = w := Option.some.inj (List.lookup_cons_self.symm.trans found)
          exact takes
        · intro key type typed
          obtain ⟨w, found, takes⟩ := reads key type (List.mem_cons_of_mem g typed)
          exact ⟨w, (skip typed).symm.trans found, takes⟩
      · intro all
        cases all with
        | cons first rest =>
          intro key type typed
          obtain rfl | typed := List.mem_cons.mp typed
          · exact ⟨v, List.lookup_cons_self, first⟩
          · obtain ⟨w, found, takes⟩ := (ih nodup length).mpr rest key type typed
            exact ⟨w, (skip typed).trans found, takes⟩

/-- An array is accepted if the strict visitor accepts it, and every key has the value at its position. -/
lemma acceptsItems_iff (nodup : schema.keys.Nodup) {items : List Json} : schema.AcceptsItems items ↔
    ∃ vs, Json.strictSeq items = some vs ∧ vs.length = schema.keys.length ∧ schema.Reads (schema.keys.zip vs) := by
  constructor
  · intro all
    have visited (j : Json) (hj : j ∈ items) : ∃ v, j.strictValue = some v := by
      obtain ⟨g, _, admits⟩ := (forall₂_mem all).2 j hj
      obtain ⟨v, hv, _⟩ := admits.strict
      exact ⟨v, hv⟩
    obtain ⟨vs, strict⟩ := exists_forall₂ visited
    have length : vs.length = schema.keys.length := by
      rw [← strict.length_eq, ← all.length_eq]
      simp [keys]
    refine ⟨vs, Json.strictSeq_iff.mpr strict, length, (reads_zip nodup length).mpr ?_⟩
    clear length visited
    induction all generalizing vs with
    | nil =>
      cases strict
      exact .nil
    | @cons g j schema items first _ ih =>
      cases strict with
      | cons hv strict =>
        obtain ⟨v, hv', takes⟩ := first.strict
        obtain rfl := Option.some.inj (hv'.symm.trans hv)
        exact .cons takes (ih (List.nodup_cons.mp nodup).2 _ strict)
  · rintro ⟨vs, parsed, length, reads⟩
    have takes := (reads_zip nodup length).mp reads
    have strict := Json.strictSeq_iff.mp parsed
    clear parsed length reads nodup
    induction takes generalizing items with
    | nil =>
      cases strict
      exact .nil
    | @cons g v schema vs first _ ih =>
      cases strict with
      | cons hv strict => exact .cons (first.admits hv) (ih strict)

/-! ### Fields -/

/-- The schema without keys. -/
lemma reads_nil : Reads [] f := nofun

/-- One more key. -/
lemma reads_cons {type : FieldType} :
    Reads ((key, type) :: schema) f ↔ (∃ v, f.lookup key = some v ∧ type.Takes v) ∧ Reads schema f := by
  constructor
  · intro h
    exact ⟨h key type List.mem_cons_self, fun k t typed => h k t (List.mem_cons_of_mem _ typed)⟩
  · rintro ⟨first, rest⟩ k t typed
    obtain e | typed := List.mem_cons.mp typed
    · cases e
      exact first
    · exact rest k t typed

/-- The reader of a text that is required. -/
lemma takes_text {ok : String → Prop} : (∃ v, f.lookup key = some v ∧ (FieldType.text ok).Takes v) ↔
    ∃ s, Value.strField f key = some s ∧ ok s := by
  unfold Value.strField
  cases e : f.lookup key with
  | none => simp
  | some v => cases v <;> simp [FieldType.Takes]

/-- The reader of an integer. -/
lemma takes_integer : (∃ v, f.lookup key = some v ∧ FieldType.integer.Takes v) ↔
    ∃ n, Value.i64Field f key = some n := by
  unfold Value.i64Field
  cases e : f.lookup key with
  | none => simp
  | some v => cases v <;> simp [FieldType.Takes]

/-- The reader of a truth value. -/
lemma takes_truth {b : Bool} : (∃ v, f.lookup key = some v ∧ (FieldType.truth b).Takes v) ↔
    Value.boolField f key = some b := by
  unfold Value.boolField
  cases e : f.lookup key with
  | none => simp
  | some v => cases v <;> simp [FieldType.Takes]

/-- An optional text is read as `None` if it is null or missing. -/
lemma takes_null : (∃ v, f.lookup key = some v ∧ FieldType.null.Takes v) ∨ f.lookup key = none ↔
    Value.optStrField f key = some none := by
  unfold Value.optStrField
  cases e : f.lookup key with
  | none => simp
  | some v => cases v <;> simp [FieldType.Takes]

/-- The reader of a text that may be null or missing. -/
lemma takes_nullable {ok : String → Prop} :
    (∃ v, f.lookup key = some v ∧ (FieldType.nullable ok).Takes v) ∨ f.lookup key = none ↔
      ∃ o, Value.optStrField f key = some o ∧ ∀ s ∈ o, ok s := by
  unfold Value.optStrField
  cases e : f.lookup key with
  | none => simp
  | some v => cases v <;> simp [FieldType.Takes]

/-- The reader of an optional text, when the text is required. -/
lemma takes_some {ok : String → Prop} : (∃ v, f.lookup key = some v ∧ (FieldType.text ok).Takes v) ↔
    ∃ s, Value.optStrField f key = some (some s) ∧ ok s := by
  unfold Value.optStrField
  cases e : f.lookup key with
  | none => simp
  | some v => cases v <;> simp [FieldType.Takes]

end Schema

/-! ## Messages -/

/-- The fields of a struct say which variant it is. -/
lemma variant_eq {value : Value} {names : List String} {f : List (String × Value)}
    (h : value.structFields? ("kind" :: names) = some f) : value.variant? "kind" = Value.strField f "kind" := by
  cases value with
  | obj fields =>
    simp only [Value.structFields?] at h
    split at h
    · cases h
      rfl
    · cases h
  | arr items =>
    simp only [Value.structFields?] at h
    split at h
    · cases items with
      | nil => rename_i length; cases length
      | cons i items =>
        cases h
        cases i <;> rfl
    · cases h
  | _ => cases h

namespace MatrixMessage
variable {value : Value} {f : List (String × Value)}

/-- The value denotes a message of a phone that passes its checks. -/
def Inbound (value : Value) (m : MatrixMessage) : Prop := fromValue value = some m ∧ m.validateInbound = .ok ()

/-- A Request is read from its fields. -/
lemma inbound_request (h : value.structFields? requestSchema.keys = some f) :
    (value.variant? "kind" = some "request" ∧ ∃ m, Inbound value m) ↔ requestSchema.Reads f := by
  have variant : value.variant? "kind" = Value.strField f "kind" := variant_eq h
  have fields : value.structFields? ["kind", "sessionId", "nonce", "sentAt", "domain"] = some f := h
  simp only [requestSchema, messageSchema, List.cons_append, List.nil_append, Schema.reads_cons, urlSafeText,
    Schema.takes_text, Schema.takes_integer, exists_eq_right, ← validateDomain_iff, ← validateId_iff]
  rw [← variant]
  constructor
  · rintro ⟨kind, m, read, valid⟩
    simp only [fromValue, kind, fields, Option.bind_eq_bind, Option.bind_some, Option.pure_def,
      Option.bind_eq_some_iff, Option.some.injEq] at read
    obtain ⟨sessionId, hs, nonce, hn, sentAt, ht, domain, hd, rfl⟩ := read
    obtain ⟨_, id, valid⟩ := bind_ok valid
    obtain ⟨_, no, dom⟩ := bind_ok valid
    exact ⟨kind, ⟨sessionId, hs, id⟩, ⟨nonce, hn, no⟩, ⟨sentAt, ht⟩, ⟨domain, hd, dom⟩, Schema.reads_nil⟩
  · rintro ⟨kind, ⟨sessionId, hs, id⟩, ⟨nonce, hn, no⟩, ⟨sentAt, ht⟩, ⟨domain, hd, dom⟩, _⟩
    refine ⟨kind, .request sessionId nonce sentAt domain, ?_, ?_⟩
    · simp only [fromValue, kind, fields, hs, hn, ht, hd, Option.bind_eq_bind, Option.bind_some, Option.pure_def]
    · simp only [validateInbound, id, no, dom, ok_bind]

/-- The fields of a Consent, but for the name. -/
structure ReadsConsent (f : List (String × Value)) (approved : Bool) : Prop where
  kind : Value.strField f "kind" = some "consent"
  sessionId : ∃ s, Value.strField f "sessionId" = some s ∧ validateId s = .ok ()
  nonce : ∃ s, Value.strField f "nonce" = some s ∧ validateId s = .ok ()
  sentAt : ∃ n, Value.i64Field f "sentAt" = some n
  approved : Value.boolField f "approved" = some approved
  challenge : ∃ s, Value.strField f "challenge" = some s ∧ validateChallengeToken s = .ok ()
  keyId : ∃ s, Value.strField f "keyId" = some s ∧ startsWith s "did:" ∧ len s ≤ 512
  signature : ∃ s, Value.strField f "signature" = some s ∧ validateSignatureB64 s = .ok ()

/-- Signatures have 86 characters. -/
lemma signature_iff {s : String} : validateSignatureB64 s = .ok () ↔
    86 ≤ s.length ∧ s.length ≤ 86 ∧ ∀ c ∈ s.toList, isUrlSafe c := by
  rw [validateSignatureB64_iff]
  constructor
  · rintro ⟨length, safe⟩
    exact ⟨length.ge, length.le, safe⟩
  · rintro ⟨ge, le, safe⟩
    exact ⟨Nat.le_antisymm le ge, safe⟩

/-- The schema of a Consent is its other fields and its name. -/
lemma reads_consent {approved : Bool} {displayName : FieldType} : (consentSchema approved displayName).Reads f ↔
    ReadsConsent f approved ∧ ∃ v, f.lookup "displayName" = some v ∧ displayName.Takes v := by
  simp only [consentSchema, messageSchema, List.cons_append, List.nil_append, Schema.reads_cons, urlSafeText,
    Schema.takes_text, Schema.takes_integer, Schema.takes_truth, exists_eq_right, ← validateId_iff,
    ← validateChallengeToken_iff, ← signature_iff]
  constructor
  · rintro ⟨kind, id, no, sent, approved, name, token, key, sig, _⟩
    exact ⟨⟨kind, id, no, sent, approved, token, key, sig⟩, name⟩
  · rintro ⟨⟨kind, id, no, sent, approved, token, key, sig⟩, name⟩
    exact ⟨kind, id, no, sent, approved, name, token, key, sig, Schema.reads_nil⟩

/-- A refused Consent without a name has the other fields. -/
lemma reads_nameless : (refusedSchema.without "displayName").Reads f ↔ ReadsConsent f false := by
  have shape : refusedSchema.without "displayName" = messageSchema "consent" ++
    [("approved", .truth false), ("challenge", urlSafeText 16 512),
      ("keyId", .text fun s => startsWith s "did:" ∧ len s ≤ 512), ("signature", urlSafeText 86 86)] := rfl
  rw [shape]
  simp only [messageSchema, List.cons_append, List.nil_append, Schema.reads_cons, urlSafeText,
    Schema.takes_text, Schema.takes_integer, Schema.takes_truth, exists_eq_right, ← validateId_iff,
    ← validateChallengeToken_iff, ← signature_iff]
  constructor
  · rintro ⟨kind, id, no, sent, approved, token, key, sig, _⟩
    exact ⟨kind, id, no, sent, approved, token, key, sig⟩
  · rintro ⟨kind, id, no, sent, approved, token, key, sig⟩
    exact ⟨kind, id, no, sent, approved, token, key, sig, Schema.reads_nil⟩

/-- A Consent is read from its fields; a refused one also without a name. -/
lemma inbound_consent (h : value.structFields? approvedSchema.keys = some f) :
    (value.variant? "kind" = some "consent" ∧ ∃ m, Inbound value m) ↔
      approvedSchema.Reads f ∨ refusedSchema.Reads f ∨
        ((refusedSchema.without "displayName").Reads f ∧ f.lookup "displayName" = none) := by
  have variant : value.variant? "kind" = Value.strField f "kind" := variant_eq h
  have fields : value.structFields? ["kind", "sessionId", "nonce", "sentAt", "approved", "displayName", "challenge",
      "keyId", "signature"] = some f := h
  have refused : refusedSchema.Reads f ∨ ((refusedSchema.without "displayName").Reads f ∧
      f.lookup "displayName" = none) ↔ ReadsConsent f false ∧ Value.optStrField f "displayName" = some none := by
    rw [refusedSchema, reads_consent, ← refusedSchema, reads_nameless, ← Schema.takes_null]
    exact and_or_left.symm
  have approved : approvedSchema.Reads f ↔ ReadsConsent f true ∧
      ∃ s, Value.optStrField f "displayName" = some (some s) ∧ s ≠ "" ∧ len s ≤ 100 := by
    rw [approvedSchema, reads_consent, Schema.takes_some]
  rw [refused, approved]
  constructor
  · rintro ⟨kind, m, read, valid⟩
    simp only [fromValue, kind, fields, Option.bind_eq_bind, Option.bind_some, Option.pure_def,
      Option.bind_eq_some_iff, Option.some.injEq] at read
    obtain ⟨sessionId, hs, nonce, hn, sentAt, ht, approved, ha, displayName, hd, token, hc, keyId, hk,
      signature, hg, rfl⟩ := read
    obtain ⟨_, id, valid⟩ := bind_ok valid
    obtain ⟨_, no, valid⟩ := bind_ok valid
    obtain ⟨_, tok, valid⟩ := bind_ok valid
    obtain ⟨key, valid⟩ := guard_ok valid
    obtain ⟨_, sig, valid⟩ := bind_ok valid
    rw [not_or, Bool.not_eq_true', Bool.not_eq_false, Nat.not_lt] at key
    have common : ReadsConsent f approved :=
      ⟨variant.symm.trans kind, ⟨_, hs, id⟩, ⟨_, hn, no⟩, ⟨_, ht⟩, ha, ⟨_, hc, tok⟩, ⟨_, hk, key⟩, ⟨_, hg, sig⟩⟩
    cases approved with
    | true =>
      cases displayName with
      | some name =>
        dsimp only at valid
        split at valid
        · rename_i ok
          exact .inl ⟨common, name, hd, not_isEmpty.mp (by simpa using ok.1), ok.2⟩
        · cases valid
      | none => cases valid
    | false =>
      cases displayName with
      | some name => cases valid
      | none => exact .inr ⟨common, hd⟩
  · intro reads
    obtain ⟨approved, displayName, common, hd, name⟩ : ∃ approved displayName, ReadsConsent f approved ∧
        Value.optStrField f "displayName" = some displayName ∧
        ((approved = true ∧ ∃ s, displayName = some s ∧ s ≠ "" ∧ len s ≤ 100) ∨
          (approved = false ∧ displayName = none)) := by
      obtain ⟨common, name, hd, nonempty, le⟩ | ⟨common, hd⟩ := reads
      · exact ⟨true, some name, common, hd, .inl ⟨rfl, name, rfl, nonempty, le⟩⟩
      · exact ⟨false, none, common, hd, .inr ⟨rfl, rfl⟩⟩
    obtain ⟨kind, ⟨sessionId, hs, id⟩, ⟨nonce, hn, no⟩, ⟨sentAt, ht⟩, ha, ⟨token, hc, tok⟩, ⟨keyId, hk, key⟩,
      ⟨signature, hg, sig⟩⟩ := common
    have kind := variant.trans kind
    have key' : ¬ ((!startsWith keyId "did:") = true ∨ len keyId > 512) := by
      rw [not_or, Bool.not_eq_true', Bool.not_eq_false, Nat.not_lt]
      exact key
    refine ⟨kind, .consent sessionId nonce sentAt approved displayName token keyId signature, ?_, ?_⟩
    · simp only [fromValue, kind, fields, hs, hn, ht, ha, hd, hc, hk, hg, Option.bind_eq_bind, Option.bind_some,
        Option.pure_def]
    · obtain ⟨rfl, s, rfl, nonempty, le⟩ | ⟨rfl, rfl⟩ := name
      · have ok : (!s.isEmpty) = true ∧ len s ≤ maxDisplayName := by
          rw [not_isEmpty.mpr nonempty]
          exact ⟨rfl, le⟩
        simp only [validateInbound, id, no, tok, sig, ok_bind, if_neg key']
        exact if_pos ok
      · simp only [validateInbound, id, no, tok, sig, ok_bind, if_neg key']
        rfl

/-- A Revocation is read from its fields, and also without a reason. -/
lemma inbound_revocation (h : value.structFields? revocationSchema.keys = some f) :
    (value.variant? "kind" = some "revocation" ∧ ∃ m, Inbound value m) ↔
      revocationSchema.Reads f ∨ ((revocationSchema.without "reason").Reads f ∧ f.lookup "reason" = none) := by
  have variant : value.variant? "kind" = Value.strField f "kind" := variant_eq h
  have fields : value.structFields? ["kind", "sessionId", "nonce", "sentAt", "siteAccountId", "reason"] = some f := h
  have shape : revocationSchema.without "reason" =
    messageSchema "revocation" ++ [("siteAccountId", urlSafeText 22 128)] := rfl
  have reads : revocationSchema.Reads f ∨ ((revocationSchema.without "reason").Reads f ∧ f.lookup "reason" = none) ↔
      Value.strField f "kind" = some "revocation" ∧
      (∃ s, Value.strField f "sessionId" = some s ∧ validateId s = .ok ()) ∧
      (∃ s, Value.strField f "nonce" = some s ∧ validateId s = .ok ()) ∧ (∃ n, Value.i64Field f "sentAt" = some n) ∧
      (∃ s, Value.strField f "siteAccountId" = some s ∧ validateSiteAccountId s = .ok ()) ∧
      ∃ o, Value.optStrField f "reason" = some o ∧ ∀ s ∈ o, len s ≤ 100 := by
    rw [shape, ← Schema.takes_nullable]
    simp only [revocationSchema, messageSchema, List.cons_append, List.nil_append, Schema.reads_cons, urlSafeText,
      Schema.takes_text, Schema.takes_integer, exists_eq_right, ← validateId_iff, ← validateSiteAccountId_iff]
    constructor
    · rintro (⟨kind, id, no, sent, account, reason, _⟩ | ⟨⟨kind, id, no, sent, account, _⟩, missing⟩)
      · exact ⟨kind, id, no, sent, account, .inl reason⟩
      · exact ⟨kind, id, no, sent, account, .inr missing⟩
    · rintro ⟨kind, id, no, sent, account, reason | missing⟩
      · exact .inl ⟨kind, id, no, sent, account, reason, Schema.reads_nil⟩
      · exact .inr ⟨⟨kind, id, no, sent, account, Schema.reads_nil⟩, missing⟩
  rw [reads, ← variant]
  constructor
  · rintro ⟨kind, m, read, valid⟩
    simp only [fromValue, kind, fields, Option.bind_eq_bind, Option.bind_some, Option.pure_def,
      Option.bind_eq_some_iff, Option.some.injEq] at read
    obtain ⟨sessionId, hs, nonce, hn, sentAt, ht, siteAccountId, ha, reason, hr, rfl⟩ := read
    obtain ⟨id, no, account, short⟩ := validateInbound_revocation valid
    exact ⟨kind, ⟨_, hs, id⟩, ⟨_, hn, no⟩, ⟨_, ht⟩, ⟨_, ha, account⟩, reason, hr, short⟩
  · rintro ⟨kind, ⟨sessionId, hs, id⟩, ⟨nonce, hn, no⟩, ⟨sentAt, ht⟩, ⟨siteAccountId, ha, account⟩, reason, hr, short⟩
    refine ⟨kind, .revocation sessionId nonce sentAt siteAccountId reason, ?_, ?_⟩
    · simp only [fromValue, kind, fields, hs, hn, ht, ha, hr, Option.bind_eq_bind, Option.bind_some,
        Option.pure_def]
    · simp only [validateInbound, id, no, account, ok_bind]
      cases reason with
      | none => rfl
      | some r => exact if_pos (short r rfl)

/-- A message of a phone is read from the fields of its kind. -/
lemma inbound_iff : (∃ m, Inbound value m) ↔
    (∃ f, value.structFields? requestSchema.keys = some f ∧ requestSchema.Reads f) ∨
    (∃ f, value.structFields? approvedSchema.keys = some f ∧ (approvedSchema.Reads f ∨ refusedSchema.Reads f ∨
      ((refusedSchema.without "displayName").Reads f ∧ f.lookup "displayName" = none))) ∨
    ∃ f, value.structFields? revocationSchema.keys = some f ∧ (revocationSchema.Reads f ∨
      ((revocationSchema.without "reason").Reads f ∧ f.lookup "reason" = none)) := by
  constructor
  · rintro ⟨m, read, valid⟩
    obtain ⟨kind, hk, branch⟩ := Option.bind_eq_some_iff.mp read
    split at branch
    · obtain ⟨f, hf, _⟩ := Option.bind_eq_some_iff.mp branch
      exact .inl ⟨f, hf, (inbound_request hf).mp ⟨hk, m, read, valid⟩⟩
    · obtain ⟨f, _, branch⟩ := Option.bind_eq_some_iff.mp branch
      simp only [Option.bind_eq_bind, Option.pure_def, Option.bind_eq_some_iff, Option.some.injEq] at branch
      obtain ⟨_, _, _, _, _, _, _, _, _, _, _, _, _, _, _, _, rfl⟩ := branch
      cases valid
    · obtain ⟨f, hf, _⟩ := Option.bind_eq_some_iff.mp branch
      exact .inr (.inl ⟨f, hf, (inbound_consent hf).mp ⟨hk, m, read, valid⟩⟩)
    · obtain ⟨f, _, branch⟩ := Option.bind_eq_some_iff.mp branch
      simp only [Option.bind_eq_bind, Option.pure_def, Option.bind_eq_some_iff, Option.some.injEq] at branch
      obtain ⟨_, _, _, _, _, _, _, _, _, _, _, _, rfl⟩ := branch
      cases valid
    · obtain ⟨f, hf, _⟩ := Option.bind_eq_some_iff.mp branch
      exact .inr (.inr ⟨f, hf, (inbound_revocation hf).mp ⟨hk, m, read, valid⟩⟩)
    · cases branch
  · rintro (⟨f, hf, reads⟩ | ⟨f, hf, reads⟩ | ⟨f, hf, reads⟩)
    · exact ((inbound_request hf).mpr reads).2
    · exact ((inbound_consent hf).mpr reads).2
    · exact ((inbound_revocation hf).mpr reads).2

end MatrixMessage

namespace Schema
variable {schema : Schema} {key : String} {json : Json}

/-- The JSON passes the strict visitor, and its value has these fields for a struct with the keys of the
schema. -/
def Gives (schema : Schema) (json : Json) (f : List (String × Value)) : Prop :=
  ∃ value, json.strictValue = some value ∧ value.structFields? schema.keys = some f

/-- An object gives its own fields. -/
lemma gives_obj {fields : List (String × Json)} {f : List (String × Value)} :
    schema.Gives (.obj fields) f ↔ Json.strictMap [] fields = some f ∧ Value.onlyKnown schema.keys f := by
  constructor
  · rintro ⟨value, strict, given⟩
    obtain ⟨vs, parsed, rfl⟩ : ∃ vs, Json.strictMap [] fields = some vs ∧ .obj vs = value := by
      simpa [Json.strictValue, Option.bind_eq_some_iff] using strict
    simp only [Value.structFields?] at given
    split at given
    · rename_i known
      cases given
      exact ⟨parsed, known⟩
    · cases given
  · rintro ⟨parsed, known⟩
    exact ⟨.obj f, by simp [Json.strictValue, parsed], if_pos known⟩

/-- An array gives its values under the keys. -/
lemma gives_arr {items : List Json} {f : List (String × Value)} : schema.Gives (.arr items) f ↔
    ∃ vs, Json.strictSeq items = some vs ∧ vs.length = schema.keys.length ∧ f = schema.keys.zip vs := by
  constructor
  · rintro ⟨value, strict, given⟩
    obtain ⟨vs, parsed, rfl⟩ : ∃ vs, Json.strictSeq items = some vs ∧ .arr vs = value := by
      simpa [Json.strictValue, Option.bind_eq_some_iff] using strict
    simp only [Value.structFields?] at given
    split at given
    · rename_i length
      cases given
      exact ⟨vs, parsed, length, rfl⟩
    · cases given
  · rintro ⟨vs, parsed, length, rfl⟩
    exact ⟨.arr vs, by simp [Json.strictValue, parsed], if_pos length⟩

/-- Nothing else has fields. -/
lemma Gives.shape {f : List (String × Value)} (h : schema.Gives json f) :
    (∃ fields, json = .obj fields) ∨ ∃ items, json = .arr items := by
  obtain ⟨value, strict, given⟩ := h
  cases json with
  | obj fields => exact .inl ⟨fields, rfl⟩
  | arr items => exact .inr ⟨items, rfl⟩
  | null =>
    simp only [Json.strictValue, Option.some.injEq] at strict
    subst strict
    cases given
  | bool b =>
    simp only [Json.strictValue, Option.some.injEq] at strict
    subst strict
    cases given
  | num n =>
    have number : Json.strictNumber n = some value := by simpa [Json.strictValue] using strict
    cases n with
    | posInt n =>
      rw [Json.strictNumber] at number
      split at number
      · cases number
        cases given
      · cases number
    | negInt n =>
      cases number
      cases given
    | float => cases number
  | str s =>
    simp only [Json.strictValue, Option.some.injEq] at strict
    subst strict
    cases given

/-- The fields of a JSON value are read if the schema accepts it as an object or as an array. -/
lemma gives_reads (nodup : schema.keys.Nodup) : (∃ f, schema.Gives json f ∧ schema.Reads f) ↔
    (∃ fields, json = .obj fields ∧ schema.Accepts fields) ∨ ∃ items, json = .arr items ∧ schema.AcceptsItems items := by
  constructor
  · rintro ⟨f, given, reads⟩
    obtain ⟨fields, rfl⟩ | ⟨items, rfl⟩ := given.shape
    · obtain ⟨parsed, known⟩ := gives_obj.mp given
      exact .inl ⟨fields, rfl, (accepts_iff nodup).mpr ⟨f, parsed, known, reads⟩⟩
    · obtain ⟨vs, parsed, length, rfl⟩ := gives_arr.mp given
      exact .inr ⟨items, rfl, (acceptsItems_iff nodup).mpr ⟨vs, parsed, length, reads⟩⟩
  · rintro (⟨fields, rfl, accepts⟩ | ⟨items, rfl, accepts⟩)
    · obtain ⟨vs, parsed, known, reads⟩ := (accepts_iff nodup).mp accepts
      exact ⟨vs, gives_obj.mpr ⟨parsed, known⟩, reads⟩
    · obtain ⟨vs, parsed, length, reads⟩ := (acceptsItems_iff nodup).mp accepts
      exact ⟨_, gives_arr.mpr ⟨vs, parsed, length, rfl⟩, reads⟩

/-- A key can only be missing from an object. -/
lemma gives_missing (nodup : schema.keys.Nodup) (mem : key ∈ schema.keys) :
    (∃ f, schema.Gives json f ∧ (schema.without key).Reads f ∧ f.lookup key = none) ↔
      ∃ fields, json = .obj fields ∧ (schema.without key).Accepts fields := by
  have nodup' : (schema.without key).keys.Nodup := by
    rw [keys_without]
    exact nodup.filter _
  constructor
  · rintro ⟨f, given, reads, missing⟩
    obtain ⟨fields, rfl⟩ | ⟨items, rfl⟩ := given.shape
    · obtain ⟨parsed, known⟩ := gives_obj.mp given
      exact ⟨fields, rfl, (accepts_iff nodup').mpr ⟨f, parsed, onlyKnown_without.mpr ⟨known, missing⟩, reads⟩⟩
    · obtain ⟨vs, _, length, rfl⟩ := gives_arr.mp given
      have keys : (schema.keys.zip vs).map Prod.fst = schema.keys := List.map_fst_zip (le_of_eq length.symm)
      rw [← keys] at mem
      obtain ⟨⟨key', v⟩, hv, e⟩ := List.mem_map.mp mem
      obtain rfl : key' = key := e
      have found := lookup_of_mem (by rw [keys]; exact nodup) hv
      nomatch found.symm.trans missing
  · rintro ⟨fields, rfl, accepts⟩
    obtain ⟨vs, parsed, known, reads⟩ := (accepts_iff nodup').mp accepts
    obtain ⟨known, missing⟩ := onlyKnown_without.mp known
    exact ⟨vs, gives_obj.mpr ⟨parsed, known⟩, reads, missing⟩

end Schema

/-- A JSON value becomes a message of a phone if it is an object or an array of a schema, or an object
without a nullable key. -/
lemma inbound_json_iff {json : Json} : (∃ value, json.strictValue = some value ∧ ∃ m, MatrixMessage.Inbound value m) ↔
    (∃ fields, json = .obj fields ∧ ∃ schema ∈ inboundSchemas, schema.Accepts fields) ∨
    (∃ fields, json = .obj fields ∧
      ((refusedSchema.without "displayName").Accepts fields ∨ (revocationSchema.without "reason").Accepts fields)) ∨
    ∃ items, json = .arr items ∧ ∃ schema ∈ inboundSchemas, schema.AcceptsItems items := by
  have request := @Schema.gives_reads requestSchema json (by decide)
  have approved := @Schema.gives_reads approvedSchema json (by decide)
  have refused := @Schema.gives_reads refusedSchema json (by decide)
  have revocation := @Schema.gives_reads revocationSchema json (by decide)
  have nameless := @Schema.gives_missing refusedSchema "displayName" json (by decide) (by decide)
  have reasonless := @Schema.gives_missing revocationSchema "reason" json (by decide) (by decide)
  have split : (∃ value, json.strictValue = some value ∧ ∃ m, MatrixMessage.Inbound value m) ↔
      (∃ f, requestSchema.Gives json f ∧ requestSchema.Reads f) ∨
      (∃ f, approvedSchema.Gives json f ∧ approvedSchema.Reads f) ∨
      (∃ f, refusedSchema.Gives json f ∧ refusedSchema.Reads f) ∨
      (∃ f, refusedSchema.Gives json f ∧ (refusedSchema.without "displayName").Reads f ∧
        f.lookup "displayName" = none) ∨
      (∃ f, revocationSchema.Gives json f ∧ revocationSchema.Reads f) ∨
      ∃ f, revocationSchema.Gives json f ∧ (revocationSchema.without "reason").Reads f ∧
        f.lookup "reason" = none := by
    simp only [MatrixMessage.inbound_iff]
    constructor
    · rintro ⟨value, strict, ⟨f, hf, reads⟩ | ⟨f, hf, reads | reads | reads⟩ | ⟨f, hf, reads | reads⟩⟩
      · exact .inl ⟨f, ⟨value, strict, hf⟩, reads⟩
      · exact .inr (.inl ⟨f, ⟨value, strict, hf⟩, reads⟩)
      · exact .inr (.inr (.inl ⟨f, ⟨value, strict, hf⟩, reads⟩))
      · exact .inr (.inr (.inr (.inl ⟨f, ⟨value, strict, hf⟩, reads⟩)))
      · exact .inr (.inr (.inr (.inr (.inl ⟨f, ⟨value, strict, hf⟩, reads⟩))))
      · exact .inr (.inr (.inr (.inr (.inr ⟨f, ⟨value, strict, hf⟩, reads⟩))))
    · rintro (⟨f, ⟨value, strict, hf⟩, reads⟩ | ⟨f, ⟨value, strict, hf⟩, reads⟩ | ⟨f, ⟨value, strict, hf⟩, reads⟩ |
        ⟨f, ⟨value, strict, hf⟩, reads⟩ | ⟨f, ⟨value, strict, hf⟩, reads⟩ | ⟨f, ⟨value, strict, hf⟩, reads⟩)
      · exact ⟨value, strict, .inl ⟨f, hf, reads⟩⟩
      · exact ⟨value, strict, .inr (.inl ⟨f, hf, .inl reads⟩)⟩
      · exact ⟨value, strict, .inr (.inl ⟨f, hf, .inr (.inl reads)⟩)⟩
      · exact ⟨value, strict, .inr (.inl ⟨f, hf, .inr (.inr reads)⟩)⟩
      · exact ⟨value, strict, .inr (.inr ⟨f, hf, .inl reads⟩)⟩
      · exact ⟨value, strict, .inr (.inr ⟨f, hf, .inr reads⟩)⟩
  rw [split, request, approved, refused, revocation, nameless, reasonless]
  simp only [inboundSchemas, List.mem_cons, List.not_mem_nil, or_false, exists_eq_or_imp, exists_eq_left]
  constructor
  · rintro ((⟨x, e, h⟩ | ⟨x, e, h⟩) | (⟨x, e, h⟩ | ⟨x, e, h⟩) | (⟨x, e, h⟩ | ⟨x, e, h⟩) | ⟨x, e, h⟩ |
      (⟨x, e, h⟩ | ⟨x, e, h⟩) | ⟨x, e, h⟩)
    · exact .inl ⟨x, e, .inl h⟩
    · exact .inr (.inr ⟨x, e, .inl h⟩)
    · exact .inl ⟨x, e, .inr (.inl h)⟩
    · exact .inr (.inr ⟨x, e, .inr (.inl h)⟩)
    · exact .inl ⟨x, e, .inr (.inr (.inl h))⟩
    · exact .inr (.inr ⟨x, e, .inr (.inr (.inl h))⟩)
    · exact .inr (.inl ⟨x, e, .inl h⟩)
    · exact .inl ⟨x, e, .inr (.inr (.inr h))⟩
    · exact .inr (.inr ⟨x, e, .inr (.inr (.inr h))⟩)
    · exact .inr (.inl ⟨x, e, .inr h⟩)
  · rintro (⟨x, e, h | h | h | h⟩ | ⟨x, e, h | h⟩ | ⟨x, e, h | h | h | h⟩)
    · exact .inl (.inl ⟨x, e, h⟩)
    · exact .inr (.inl (.inl ⟨x, e, h⟩))
    · exact .inr (.inr (.inl (.inl ⟨x, e, h⟩)))
    · exact .inr (.inr (.inr (.inr (.inl (.inl ⟨x, e, h⟩)))))
    · exact .inr (.inr (.inr (.inl ⟨x, e, h⟩)))
    · exact .inr (.inr (.inr (.inr (.inr ⟨x, e, h⟩))))
    · exact .inl (.inr ⟨x, e, h⟩)
    · exact .inr (.inl (.inr ⟨x, e, h⟩))
    · exact .inr (.inr (.inl (.inr ⟨x, e, h⟩)))
    · exact .inr (.inr (.inr (.inr (.inl (.inr ⟨x, e, h⟩)))))

/-! ## Bodies -/

/-- A body is decoded if it carries a JSON value that becomes a message. -/
lemma decodes_iff {X : Crates} (b64 : X.Base64Correct) (shape : X.Base64Shape) (canonical : X.Base64Canonical)
    {body : String} : (∃ m, MatrixMessage.decode X body = .ok m) ↔
      ∃ json, Carries X body json ∧ ∃ value, json.strictValue = some value ∧ ∃ m, MatrixMessage.Inbound value m := by
  constructor
  · rintro ⟨m, h⟩
    unfold MatrixMessage.decode at h
    split at h
    · nomatch h
    split at h
    · nomatch h
    rename_i encoded stripped
    obtain ⟨bytes, dec, h⟩ := bind_ok h
    split at h
    · nomatch h
    rename_i short
    obtain ⟨m', parsed, h⟩ := bind_ok h
    obtain ⟨_, valid, h⟩ := bind_ok h
    cases h
    rw [Base64url.decode_iff b64 shape canonical] at dec
    subst dec
    unfold strictFromSlice at parsed
    split at parsed
    · nomatch parsed
    · rename_i text utf8
      obtain ⟨json, value, read, strict, from_value⟩ := strictFromStr_iff.mp parsed
      exact ⟨json, ⟨bytes, text, stripPrefix_eq_some.mp stripped, Nat.not_lt.mp short,
        fromUtf8_eq_some.mp utf8, read⟩, value, strict, m, from_value, valid⟩
  · rintro ⟨json, ⟨bytes, text, rfl, short, utf8, read⟩, value, strict, m, from_value, valid⟩
    refine ⟨m, ?_⟩
    -- the limit on the body leaves room for every payload of the permitted size
    have length : ¬ len (matrixPrefix ++ Base64url.encode X bytes) > maxDecodedBody * 2 := by
      have sum : len (matrixPrefix ++ Base64url.encode X bytes) = len matrixPrefix + len (X.base64Encode bytes) := by
        simp [len, Base64url.encode]
      have fixed : len matrixPrefix = 20 := by decide
      rw [sum, (shape _).1, fixed]
      unfold maxDecodedBody
      omega
    have short' : ¬ bytes.length > maxDecodedBody := Nat.not_lt.mpr short
    have parsed : strictFromSlice X MatrixMessage.fromValue bytes = .ok m := by
      rw [strictFromSlice, fromUtf8_eq_some.mpr utf8]
      exact strictFromStr_iff.mpr ⟨json, value, read, strict, from_value⟩
    rw [MatrixMessage.decode, if_neg length, stripPrefix_append]
    simp only [Base64url.decode_encode b64 shape, ok_bind, if_neg short', parsed, valid]
    rfl

/-- A body carries one JSON value. -/
lemma Carries.unique {X : Crates} (b64 : X.Base64Correct) {body : String} {json json' : Json}
    (h : Carries X body json) (h' : Carries X body json') : json = json' := by
  obtain ⟨bytes, text, e, _, utf8, read⟩ := h
  obtain ⟨bytes', text', e', _, utf8', read'⟩ := h'
  have encoded : Base64url.encode X bytes = Base64url.encode X bytes' := by
    have same := e.symm.trans e'
    exact (String.append_right_inj matrixPrefix).mp same
  obtain rfl := b64.inj encoded
  obtain rfl := asBytes_inj (utf8.trans utf8'.symm)
  exact Option.some.inj (read.symm.trans read')

/-- The relay decodes the documented bodies and the lenient ones. -/
lemma decodes_iff_documented {X : Crates} (b64 : X.Base64Correct) (shape : X.Base64Shape)
    (canonical : X.Base64Canonical) {body : String} :
    (∃ m, MatrixMessage.decode X body = .ok m) ↔ Documented X body ∨ Lenient X body := by
  rw [decodes_iff b64 shape canonical]
  simp only [inbound_json_iff]
  constructor
  · rintro ⟨json, carries, ⟨fields, rfl, accepts⟩ | ⟨fields, rfl, accepts⟩ | ⟨items, rfl, accepts⟩⟩
    · exact .inl ⟨fields, carries, accepts⟩
    · exact .inr (.inl ⟨fields, carries, accepts⟩)
    · exact .inr (.inr ⟨items, carries, accepts⟩)
  · rintro (⟨fields, carries, accepts⟩ | ⟨fields, carries, accepts⟩ | ⟨items, carries, accepts⟩)
    · exact ⟨_, carries, .inl ⟨fields, rfl, accepts⟩⟩
    · exact ⟨_, carries, .inr (.inl ⟨fields, rfl, accepts⟩)⟩
    · exact ⟨_, carries, .inr (.inr ⟨items, rfl, accepts⟩)⟩

/-- A lenient body is not a documented one. -/
lemma Lenient.not_documented {X : Crates} (b64 : X.Base64Correct) {body : String} (lenient : Lenient X body) :
    ¬ Documented X body := by
  rintro ⟨fields, carries, schema, mem, keys, _⟩
  -- no schema has the keys of another one without its nullable key
  have nameless : ∀ schema ∈ inboundSchemas, ¬ (refusedSchema.without "displayName").keys.Perm schema.keys := by
    simp only [inboundSchemas, List.forall_mem_cons]
    exact ⟨by decide, by decide, by decide, by decide, nofun⟩
  have reasonless : ∀ schema ∈ inboundSchemas, ¬ (revocationSchema.without "reason").keys.Perm schema.keys := by
    simp only [inboundSchemas, List.forall_mem_cons]
    exact ⟨by decide, by decide, by decide, by decide, nofun⟩
  obtain ⟨fields', carries', accepts⟩ | ⟨items, carries', _⟩ := lenient
  · cases carries.unique b64 carries'
    obtain ⟨keys', _⟩ | ⟨keys', _⟩ := accepts
    · exact nameless schema mem (keys'.symm.trans keys)
    · exact reasonless schema mem (keys'.symm.trans keys)
  · nomatch carries.unique b64 carries'

/-- The relay decodes exactly the documented bodies, but for the lenient ones. -/
theorem decodes_exactly_iff {X : Crates} (b64 : X.Base64Correct) (shape : X.Base64Shape)
    (canonical : X.Base64Canonical) (body : String) :
    ((∃ m, MatrixMessage.decode X body = .ok m) ↔ Documented X body) ↔ ¬ Lenient X body := by
  rw [decodes_iff_documented b64 shape canonical]
  constructor
  · intro exact lenient
    exact lenient.not_documented b64 (exact.mp (.inr lenient))
  · intro strict
    exact ⟨fun h => h.resolve_right strict, .inl⟩

/-- The body of an object of scalars carries it. -/
lemma carries_obj {X : Crates} (json : X.JsonCorrect) {fields : List (String × Value)}
    (nodup : (fields.map Prod.fst).Nodup) (scalar : ∀ f ∈ fields, f.2.isScalar)
    (short : (X.jsonToVec (.obj fields)).length ≤ 32768) :
    Carries X (matrixPrefix ++ Base64url.encode X (X.jsonToVec (.obj fields)))
      (.obj (fields.map fun f => (f.1, Json.ofScalar f.2))) := by
  obtain ⟨text, utf8, read⟩ := Option.bind_eq_some_iff.mp (json fields nodup scalar)
  exact ⟨_, text, rfl, short, fromUtf8_eq_some.mp utf8, read⟩

namespace Sample

/-- Alice's Request. -/
def aliceRequest : MatrixMessage := .request "session-of-alice" "nonce-of-alice-1" (-5) "a.io"

/-- The Request of Alice is valid. -/
lemma aliceRequest_valid : aliceRequest.validateInbound = .ok () := by
  have sessionId : validateId "session-of-alice" = .ok () := alice_valid.sessionId
  have nonce : validateId "nonce-of-alice-1" = .ok () := alice_valid.nonce
  have domain : validateDomain "a.io" = .ok () := alice_valid.domain
  simp only [aliceRequest, MatrixMessage.validateInbound, sessionId, nonce, domain, ok_bind]

/-- A refused Consent without a name. -/
def nameless : List (String × Value) :=
  [("kind", .str "consent"), ("sessionId", .str "session-of-alice"), ("nonce", .str "nonce-of-alice-1"),
    ("sentAt", .int 7), ("approved", .bool false), ("challenge", .str "challenge-123456"), ("keyId", .str "did:key:z"),
    ("signature", .str "signature-signature-signature-signature-signature-signature-signature-signature-signat")]

/-- Its body. -/
def namelessBody : String := matrixPrefix ++ Base64url.encode .stub (Crates.stub.jsonToVec (.obj nameless))

end Sample

/-- Alice's Request is decoded, and is documented. -/
theorem decodes_exactly_alice : (∃ m, MatrixMessage.decode .stub (Sample.aliceRequest.body .stub) = .ok m) ↔
    Documented .stub (Sample.aliceRequest.body .stub) := by
  refine (decodes_exactly_iff Crates.stub_base64 Crates.stub_base64Shape Crates.stub_canonical
    _).mpr ?_
  have short := MatrixMessage.short_of_inbound Crates.stub_compact Sample.aliceRequest_valid
  obtain ⟨fields, e, nodup, scalar⟩ := Sample.aliceRequest.toValue_flat
  have carries := carries_obj Crates.stub_json nodup scalar (by rw [← e]; exact short)
  rw [← e] at carries
  have keys : (fields.map fun f => (f.1, Json.ofScalar f.2)).map Prod.fst = requestSchema.keys := by
    cases e
    rfl
  rintro (⟨fields', carries', accepts⟩ | ⟨items, carries', _⟩)
  · cases carries.unique Crates.stub_base64 carries'
    obtain ⟨keys', _⟩ | ⟨keys', _⟩ := accepts
    · exact absurd (keys ▸ keys') (by decide)
    · exact absurd (keys ▸ keys') (by decide)
  · nomatch carries.unique Crates.stub_base64 carries'

/-- A refused Consent without a name is decoded, and is not documented. -/
theorem nameless_is_decoded : ¬ ∀ X : Crates, X.Base64Correct → X.Base64Shape → X.Base64Canonical →
    ∀ body, (∃ m, MatrixMessage.decode X body = .ok m) ↔ Documented X body := by
  intro claim
  have exact := claim .stub Crates.stub_base64 Crates.stub_base64Shape Crates.stub_canonical
    Sample.namelessBody
  have short : (Crates.stub.jsonToVec (.obj Sample.nameless)).length ≤ 32768 := by
    rw [Crates.stub_compact Sample.nameless (by simp [Sample.nameless])]
    refine (length_asBytes_ofList _).trans ?_
    have keys : ∀ f ∈ Sample.nameless, f.1.length ≤ 9 := by decide
    have values : ∀ f ∈ Sample.nameless, (JsonText.print f.2).length ≤ 6 * 86 + 2 := by decide +kernel
    refine (Nat.mul_le_mul_left 4 (JsonText.length_print_obj keys values)).trans ?_
    decide
  have carries := @carries_obj .stub Crates.stub_json Sample.nameless (by simp [Sample.nameless])
    (by simp [Sample.nameless]) short
  have accepts : (refusedSchema.without "displayName").Accepts (Sample.nameless.map fun f => (f.1, Json.ofScalar f.2)) := by
    refine (Schema.accepts_iff (by decide +kernel)).mpr ⟨Sample.nameless, ?_, by decide +kernel, ?_⟩
    · exact Json.strictMap_ofScalar (by simp [Sample.nameless]) (fun _ _ => List.not_mem_nil) (by simp [Sample.nameless])
    · refine MatrixMessage.reads_nameless.mpr ⟨rfl, ⟨_, rfl, Sample.alice_valid.sessionId⟩,
        ⟨_, rfl, Sample.alice_valid.nonce⟩, ⟨_, rfl⟩, rfl, ⟨_, rfl, ?_⟩, ⟨_, rfl, by decide +kernel, by decide +kernel⟩, ⟨_, rfl, ?_⟩⟩
      · exact validateChallengeToken_iff.mpr ⟨by decide, by decide, List.all_eq_true.mp (by decide)⟩
      · exact validateSignatureB64_iff.mpr ⟨by decide, List.all_eq_true.mp (by decide)⟩
  have lenient : Lenient .stub Sample.namelessBody := .inl ⟨_, carries, .inl accepts⟩
  have decoded := (decodes_iff_documented Crates.stub_base64 Crates.stub_base64Shape
    Crates.stub_canonical).mpr (.inr lenient)
  exact lenient.not_documented Crates.stub_base64 (exact.mp decoded)

end WebLoginRelay
