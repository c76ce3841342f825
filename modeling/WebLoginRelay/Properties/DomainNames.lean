import WebLoginRelay.Protocol.Validation

/-!
# Domain names

The texts `validate_domain` accepts: at least two labels between dots, the last of which consists of
letters. The pattern decides; the other checks reject nothing it accepts, except for the length.
-/

namespace WebLoginRelay
open Text

/-- A label: 1 to 63 characters of `[a-z0-9-]` without a dash at either end. -/
structure IsLabel (cs : List Char) : Prop where
  nonempty : cs ≠ []
  short : cs.length ≤ 63
  chars : ∀ c ∈ cs, isLower c || isDigit c || c == '-'
  first : cs.head? ≠ some '-'
  last : cs.getLast? ≠ some '-'

/-- The last label: 2 to 63 letters. -/
structure IsTopLevel (cs : List Char) : Prop where
  long : 2 ≤ cs.length
  short : cs.length ≤ 63
  letters : ∀ c ∈ cs, isLower c

/-- At most 253 bytes that dots split into labels and a top-level label. -/
structure IsDomainName (s : String) : Prop where
  short : len s ≤ 253
  labels : ∃ labels top, s.toList.splitOn '.' = labels ++ [top] ∧ labels ≠ [] ∧
    (∀ l ∈ labels, IsLabel l) ∧ IsTopLevel top

/-- `[a-z0-9]`. -/
def isAlnum (c : Char) : Bool := isLower c || isDigit c

/-- `[a-z0-9](?:[a-z0-9-]{0,61}[a-z0-9])?`. -/
def labelRe : Regex :=
  Regex.seq (Regex.cls isAlnum)
    (Regex.opt (Regex.seq ((Regex.cls fun c => isLower c || isDigit c || c == '-').upTo 61) (Regex.cls isAlnum)))

/-- The parts of the pattern. -/
lemma domainRe_eq : domainRe = Regex.seq (Regex.plus (Regex.seq labelRe (Regex.cls (· == '.'))))
    ((Regex.cls isLower).between 2 63) := rfl

/-- A character other than a dash that a label has is a letter or a digit. -/
lemma isAlnum_iff {c : Char} : isAlnum c ↔ (isLower c || isDigit c || c == '-') ∧ c ≠ '-' := by
  have dash : ¬ isAlnum '-' := by decide
  simp only [isAlnum, Bool.or_eq_true, beq_iff_eq] at dash ⊢
  constructor
  · intro h
    exact ⟨.inl h, fun e => dash (e ▸ h)⟩
  · rintro ⟨h | h, ne⟩
    · exact h
    · exact absurd h ne

/-- The expression of a label describes the labels. -/
lemma lang_label {cs : List Char} : labelRe.Lang cs ↔ IsLabel cs := by
  cases cs with
  | nil =>
    constructor
    · intro h
      exact absurd h Regex.lang_cls_seq_nil
    · intro h
      exact absurd rfl h.nonempty
  | cons a rest =>
    rw [labelRe, Regex.lang_cls_seq_cons]
    constructor
    · rintro ⟨ha, rfl | ⟨w, v, rfl, hw, b, rfl, hb⟩⟩
      · have single := isAlnum_iff.mp ha
        exact ⟨List.cons_ne_nil a [], by simp, by simpa using single.1, by simpa using single.2,
          by simpa using single.2⟩
      · rw [Regex.lang_upTo] at hw
        obtain ⟨a_chars, a_dash⟩ := isAlnum_iff.mp ha
        obtain ⟨b_chars, b_dash⟩ := isAlnum_iff.mp hb
        refine ⟨List.cons_ne_nil a _, ?_, ?_, by simpa using a_dash, ?_⟩
        · simp only [List.length_cons, List.length_append, List.length_nil]
          omega
        · intro c hc
          obtain rfl | hc := List.mem_cons.mp hc
          · exact a_chars
          · obtain hc | hc := List.mem_append.mp hc
            · exact hw.2 c hc
            · exact List.mem_singleton.mp hc ▸ b_chars
        · rw [← List.cons_append, List.getLast?_concat]
          exact fun e => b_dash (Option.some.inj e)
    · intro label
      have chars := label.chars
      rw [List.forall_mem_cons] at chars
      have ha : isAlnum a := isAlnum_iff.mpr ⟨chars.1, by simpa using label.first⟩
      refine ⟨ha, ?_⟩
      obtain rfl | ⟨w, b, rfl⟩ := List.eq_nil_or_concat' rest
      · exact .inl rfl
      · have last := label.last
        rw [← List.cons_append, List.getLast?_concat] at last
        have hb : isAlnum b :=
          isAlnum_iff.mpr ⟨chars.2 b (by simp), fun e => last (congrArg some e)⟩
        have short := label.short
        simp only [List.length_cons, List.length_append, List.length_nil] at short
        refine .inr ⟨w, [b], rfl, ?_, b, rfl, hb⟩
        exact Regex.lang_upTo.mpr ⟨by omega, fun c hc => chars.2 c (List.mem_append_left _ hc)⟩

/-- The labels before the last one, each with its dot. -/
def dotted (labels : List (List Char)) : List Char := (labels.map (· ++ ['.'])).flatten

/-- The pattern describes dotted labels before a top-level label. -/
lemma lang_domain {cs : List Char} : domainRe.Lang cs ↔
    ∃ labels top, cs = dotted labels ++ top ∧ labels ≠ [] ∧ (∀ l ∈ labels, IsLabel l) ∧ IsTopLevel top := by
  have part {u : List Char} : (Regex.seq labelRe (Regex.cls (· == '.'))).Lang u ↔ ∃ l, u = l ++ ['.'] ∧ IsLabel l := by
    constructor
    · rintro ⟨l, _, rfl, hl, c, rfl, dot⟩
      exact ⟨l, by rw [beq_iff_eq.mp dot], lang_label.mp hl⟩
    · rintro ⟨l, rfl, hl⟩
      exact ⟨l, ['.'], rfl, lang_label.mpr hl, '.', rfl, rfl⟩
  have top {v : List Char} : ((Regex.cls isLower).between 2 63).Lang v ↔ IsTopLevel v := by
    rw [Regex.lang_between (by decide)]
    exact ⟨fun h => ⟨h.1, h.2.1, h.2.2⟩, fun h => ⟨h.long, h.short, h.letters⟩⟩
  rw [domainRe_eq]
  constructor
  · rintro ⟨u, v, rfl, hu, hv⟩
    obtain ⟨us, ne, rfl, all⟩ := Regex.lang_plus.mp hu
    have labels : ∃ ls : List (List Char), us = ls.map (· ++ ['.']) ∧ ∀ l ∈ ls, IsLabel l := by
      clear ne hu
      induction us with
      | nil => exact ⟨[], rfl, nofun⟩
      | cons u us ih =>
        obtain ⟨first, rest⟩ := List.forall_mem_cons.mp all
        obtain ⟨l, rfl, hl⟩ := part.mp first
        obtain ⟨ls, rfl, hls⟩ := ih rest
        exact ⟨l :: ls, rfl, List.forall_mem_cons.mpr ⟨hl, hls⟩⟩
    obtain ⟨ls, rfl, hls⟩ := labels
    exact ⟨ls, v, rfl, fun e => ne (by rw [e]; rfl), hls, top.mp hv⟩
  · rintro ⟨ls, v, rfl, ne, hls, hv⟩
    refine ⟨dotted ls, v, rfl, Regex.lang_plus.mpr ⟨ls.map (· ++ ['.']), ?_, rfl, ?_⟩, top.mpr hv⟩
    · exact fun e => ne (List.map_eq_nil_iff.mp e)
    · intro u hu
      obtain ⟨l, hl, rfl⟩ := List.mem_map.mp hu
      exact part.mpr ⟨l, rfl, hls l hl⟩

/-- Splitting at the dots gives the labels. -/
lemma splitOn_dotted {labels : List (List Char)} {top : List Char} (none : ∀ l ∈ labels, '.' ∉ l)
    (top_none : '.' ∉ top) : (dotted labels ++ top).splitOn '.' = labels ++ [top] := by
  induction labels with
  | nil => exact List.splitOn_eq_singleton top_none
  | cons l labels ih =>
    obtain ⟨first, rest⟩ := List.forall_mem_cons.mp none
    have shape : dotted (l :: labels) ++ top = l ++ '.' :: (dotted labels ++ top) := by simp [dotted]
    rw [shape, List.splitOn_append_cons_self_of_not_mem first, ih rest]
    rfl

/-- A text is its labels with the dots between them. -/
lemma eq_dotted {cs : List Char} {labels : List (List Char)} {top : List Char}
    (h : cs.splitOn '.' = labels ++ [top]) : cs = dotted labels ++ top := by
  have joined : ['.'].intercalate (cs.splitOn '.') = cs := List.intercalate_splitOn '.'
  rw [← joined, h]
  clear joined h
  induction labels with
  | nil => simp [dotted]
  | cons l labels ih =>
    rw [List.cons_append, List.intercalate_cons_of_ne_nil (by simp), ih]
    simp [dotted]

/-- No label contains a dot. -/
lemma IsLabel.no_dot {l : List Char} (h : IsLabel l) : '.' ∉ l := fun dot => absurd (h.chars _ dot) (by decide)

/-- The last label contains no dot. -/
lemma IsTopLevel.no_dot {l : List Char} (h : IsTopLevel l) : '.' ∉ l := fun dot =>
  absurd (h.letters _ dot) (by decide)

/-- The characters of a domain name are ASCII, and none of them is reserved in a URL. -/
lemma IsDomainName.chars {s : String} (h : IsDomainName s) :
    ∀ c ∈ s.toList, (isLower c || isDigit c || c == '-') ∨ c = '.' := by
  obtain ⟨labels, top, split, _, all, last⟩ := h.labels
  rw [eq_dotted split]
  intro c hc
  obtain hc | hc := List.mem_append.mp hc
  · obtain ⟨u, hu, hc⟩ := List.mem_flatten.mp hc
    obtain ⟨l, hl, rfl⟩ := List.mem_map.mp hu
    obtain hc | hc := List.mem_append.mp hc
    · exact .inl ((all l hl).chars c hc)
    · exact .inr (List.mem_singleton.mp hc)
  · refine .inl ?_
    rw [last.letters c hc]
    rfl

/-- The characters of domain names. -/
lemma domainChar_toNat {c : Char} (h : (isLower c || isDigit c || c == '-') ∨ c = '.') :
    c.toNat < 128 ∧ c.toNat ≠ 58 ∧ c.toNat ≠ 47 ∧ c.toNat ≠ 64 ∧ 33 ≤ c.toNat := by
  simp only [isLower, isDigit, Bool.or_eq_true, Bool.and_eq_true, decide_eq_true_eq, beq_iff_eq,
    Char.le_def, UInt32.le_iff_toNat_le] at h
  have v : c.val.toNat = c.toNat := rfl
  rw [v] at h
  obtain ((⟨lo, hi⟩ | ⟨lo, hi⟩) | rfl) | rfl := h
  · have a : ('a' : Char).val.toNat = 97 := rfl
    have z : ('z' : Char).val.toNat = 122 := rfl
    omega
  · have zero : ('0' : Char).val.toNat = 48 := rfl
    have nine : ('9' : Char).val.toNat = 57 := rfl
    omega
  · decide
  · decide

/-- The bytes of a domain name are its characters. -/
lemma IsDomainName.bytes {s : String} (h : IsDomainName s) :
    asBytes s = s.toList.map fun c => UInt8.ofNat c.toNat := by
  have ascii := asBytes_ascii fun c hc => (domainChar_toNat (h.chars c hc)).1
  rwa [String.ofList_toList] at ascii

/-- A domain name does not contain a reserved character. -/
lemma IsDomainName.not_contains {s pat : String} {n : Nat} (h : IsDomainName s) (one : asBytes pat = [UInt8.ofNat n])
    (lt : n < 128) (none : ∀ c ∈ s.toList, c.toNat ≠ n) : contains s pat = false := by
  refine decide_eq_false ?_
  intro infix_
  have mem : UInt8.ofNat n ∈ asBytes s := infix_.subset (by rw [one]; exact List.mem_singleton_self _)
  rw [h.bytes] at mem
  obtain ⟨c, hc, e⟩ := List.mem_map.mp mem
  have ascii := (domainChar_toNat (h.chars c hc)).1
  have same := congrArg UInt8.toNat e
  rw [UInt8.toNat_ofNat', UInt8.toNat_ofNat'] at same
  exact none c hc (by omega)

/-- A domain name is not an address: its last label consists of letters. -/
lemma IsDomainName.not_ipv4 {s : String} (h : IsDomainName s) : isIpv4 s = false := by
  obtain ⟨labels, top, split, _, _, last⟩ := h.labels
  rw [← Bool.not_eq_true]
  intro ip
  simp only [isIpv4, split, Bool.and_eq_true, List.all_eq_true] at ip
  have digits := ip.2 top (by simp)
  obtain ⟨c, top, rfl⟩ := List.exists_cons_of_length_pos (Nat.lt_of_lt_of_le Nat.two_pos last.long)
  have digit := digits.1.1.2 c List.mem_cons_self
  have letter := last.letters c List.mem_cons_self
  simp only [isLower, isDigit, Bool.and_eq_true, decide_eq_true_eq, Char.le_def,
    UInt32.le_iff_toNat_le] at digit letter
  have a : ('a' : Char).val.toNat = 97 := rfl
  have nine : ('9' : Char).val.toNat = 57 := rfl
  omega

/-- A domain name does not end with a dot. -/
lemma IsDomainName.not_endsWith {s : String} (h : IsDomainName s) : endsWith s "." = false := by
  obtain ⟨labels, top, split, _, _, last⟩ := h.labels
  rw [← Bool.not_eq_true]
  intro dot
  obtain ⟨bytes, e⟩ := List.isSuffixOf_iff_suffix.mp dot
  rw [h.bytes, eq_dotted split] at e
  obtain rfl | ⟨init, c, rfl⟩ := List.eq_nil_or_concat' top
  · exact absurd last.long (by simp)
  rw [← List.append_assoc, List.map_append] at e
  have byte : asBytes "." = [UInt8.ofNat c.toNat] := (List.append_inj' e rfl).2
  have letter := last.letters c (by simp)
  simp only [isLower, Bool.and_eq_true, decide_eq_true_eq, Char.le_def, UInt32.le_iff_toNat_le] at letter
  have v : c.val.toNat = c.toNat := rfl
  have a : ('a' : Char).val.toNat = 97 := rfl
  have z : ('z' : Char).val.toNat = 122 := rfl
  have same := congrArg (fun bs : Bytes => bs.map UInt8.toNat) byte
  have dot' : (asBytes ".").map UInt8.toNat = [46] := by decide
  simp only [dot', List.map_cons, List.map_nil, UInt8.toNat_ofNat', List.cons.injEq, and_true] at same
  omega

/-- The relay accepts exactly the domain names. -/
theorem validateDomain_iff {s : String} : validateDomain s = .ok () ↔ IsDomainName s := by
  unfold validateDomain
  constructor
  · intro h
    split at h
    · nomatch h
    rename_i ok
    simp only [not_or, Bool.not_eq_true', Bool.not_eq_false] at ok
    obtain ⟨short, _, _, _, _, _, pattern⟩ := ok
    obtain ⟨labels, top, e, ne, all, last⟩ := lang_domain.mp (Regex.isMatch_iff.mp pattern)
    refine ⟨Nat.not_lt.mp short, labels, top, ?_, ne, all, last⟩
    rw [e]
    exact splitOn_dotted (fun l hl => (all l hl).no_dot) last.no_dot
  · intro h
    have pattern : domainRe.isMatch s = true := by
      obtain ⟨labels, top, split, ne, all, last⟩ := h.labels
      exact Regex.isMatch_iff.mpr (lang_domain.mpr ⟨labels, top, eq_dotted split, ne, all, last⟩)
    have reserved (c) (hc : c ∈ s.toList) := domainChar_toNat (h.chars c hc)
    have colon : contains s ":" = false := h.not_contains (n := 58) rfl (by decide) fun c hc => (reserved c hc).2.1
    have slash : contains s "/" = false := h.not_contains (n := 47) rfl (by decide) fun c hc => (reserved c hc).2.2.1
    have at_ : contains s "@" = false := h.not_contains (n := 64) rfl (by decide) fun c hc => (reserved c hc).2.2.2.1
    rw [if_neg]
    simp only [h.not_endsWith, colon, slash, at_, h.not_ipv4, pattern, not_or, Nat.not_lt]
    exact ⟨h.short, by simp⟩

end WebLoginRelay
