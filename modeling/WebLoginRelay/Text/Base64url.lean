import WebLoginRelay.Text.Utf8

/-!
# Unpadded base64url

The encoding of RFC 4648, section 5, without padding: three bytes are four characters, and the last one
or two bytes are two or three. Decoding rejects characters outside the alphabet, a single left-over
character, and bits left over that are not zero.
-/

namespace Text.Base64url

/-- The character of a sextet. -/
def char (n : Nat) : Char :=
  if n < 26 then Char.ofNat (n + 65)
  else if n < 52 then Char.ofNat (n + 71)
  else if n < 62 then Char.ofNat (n - 4)
  else if n = 62 then '-'
  else '_'

/-- The sextet of a character. -/
def sextet (c : Char) : Option Nat :=
  let n := c.toNat
  if 65 ≤ n ∧ n ≤ 90 then some (n - 65)
  else if 97 ≤ n ∧ n ≤ 122 then some (n - 71)
  else if 48 ≤ n ∧ n ≤ 57 then some (n + 4)
  else if c = '-' then some 62
  else if c = '_' then some 63
  else none

/-- The sextets of bytes. -/
def split : Bytes → List Nat
  | a :: b :: c :: rest =>
    a.toNat / 4 :: (a.toNat % 4 * 16 + b.toNat / 16) :: (b.toNat % 16 * 4 + c.toNat / 64) ::
      c.toNat % 64 :: split rest
  | [a, b] => [a.toNat / 4, a.toNat % 4 * 16 + b.toNat / 16, b.toNat % 16 * 4]
  | [a] => [a.toNat / 4, a.toNat % 4 * 16]
  | [] => []

/-- The bytes of sextets. -/
def join : List Nat → Option Bytes
  | w :: x :: y :: z :: rest => do
    let bytes ← join rest
    return UInt8.ofNat (w * 4 + x / 16) :: UInt8.ofNat (x % 16 * 16 + y / 4) ::
      UInt8.ofNat (y % 4 * 64 + z) :: bytes
  | [w, x, y] =>
    if y % 4 = 0 then some [UInt8.ofNat (w * 4 + x / 16), UInt8.ofNat (x % 16 * 16 + y / 4)] else none
  | [w, x] => if x % 16 = 0 then some [UInt8.ofNat (w * 4 + x / 16)] else none
  | [_] => none
  | [] => some []

/-- The text of bytes. -/
def encode (b : Bytes) : String := String.ofList ((split b).map char)

/-- The bytes of a text. -/
def decode (s : String) : Option Bytes := do
  join (← s.toList.mapM sextet)

/-- Every sextet has a character of its own. -/
lemma sextet_char {n : Nat} (h : n < 64) : sextet (char n) = some n := by
  have all : ∀ n : Fin 64, sextet (char n) = some n.val := by decide
  exact all ⟨n, h⟩

/-- The sextets of bytes are sextets. -/
lemma lt_of_mem_split {b : Bytes} : ∀ n ∈ split b, n < 64 := by
  induction b using split.induct with
  | case1 a b c rest ih =>
    have ha := a.toNat_lt
    have hb := b.toNat_lt
    have hc := c.toNat_lt
    intro n hn
    simp only [split, List.mem_cons] at hn
    obtain rfl | rfl | rfl | rfl | hn := hn
    · omega
    · omega
    · omega
    · omega
    · exact ih n hn
  | case2 a b =>
    have ha := a.toNat_lt
    have hb := b.toNat_lt
    intro n hn
    simp only [split, List.mem_cons, List.not_mem_nil, or_false] at hn
    omega
  | case3 a =>
    have ha := a.toNat_lt
    intro n hn
    simp only [split, List.mem_cons, List.not_mem_nil, or_false] at hn
    omega
  | case4 => exact fun n hn => nomatch hn

/-- A byte is the byte of its value. -/
lemma ofNat_eq {n : Nat} {a : UInt8} (h : n = a.toNat) : UInt8.ofNat n = a := by
  rw [h, UInt8.ofNat_toNat]

/-- The bytes of the sextets of bytes. -/
lemma join_split (b : Bytes) : join (split b) = some b := by
  induction b using split.induct with
  | case1 a b c rest ih =>
    have ha := a.toNat_lt
    have hb := b.toNat_lt
    have hc := c.toNat_lt
    simp only [split, join, ih, Option.bind_eq_bind, Option.bind_some, Option.pure_def,
      Option.some.injEq, List.cons.injEq, and_true]
    exact ⟨ofNat_eq (by omega), ofNat_eq (by omega), ofNat_eq (by omega)⟩
  | case2 a b =>
    have ha := a.toNat_lt
    have hb := b.toNat_lt
    rw [split, join, if_pos (by omega), ofNat_eq (by omega : _ = a.toNat),
      ofNat_eq (by omega : _ = b.toNat)]
  | case3 a =>
    have ha := a.toNat_lt
    rw [split, join, if_pos (by omega), ofNat_eq (by omega : _ = a.toNat)]
  | case4 => rfl

/-- Decoding undoes encoding. -/
theorem decode_encode (b : Bytes) : decode (encode b) = some b := by
  have sextets : ((split b).map char).mapM sextet = some (split b) := by
    have lt := lt_of_mem_split (b := b)
    generalize split b = ns at lt
    induction ns with
    | nil => rfl
    | cons n ns ih =>
      have first : sextet (char n) = some n := sextet_char (lt n (by simp))
      have rest : (ns.map char).mapM sextet = some ns := ih fun m hm => lt m (by simp [hm])
      simp [first, rest]
  simp [decode, encode, sextets, join_split]

/-- The characters are ASCII. -/
lemma asBytes_encode (b : Bytes) : asBytes (encode b) = (split b).map fun n => (char n).toUInt8 := by
  rw [encode, asBytes_ofList]
  have lt := lt_of_mem_split (b := b)
  generalize split b = ns at lt
  induction ns with
  | nil => rfl
  | cons n ns ih =>
    have all : ∀ n : Fin 64, String.utf8EncodeChar (char n) = [(char n).toUInt8] := by decide
    rw [List.map_cons, List.flatMap_cons, List.map_cons, all ⟨n, lt n (by simp)⟩,
      ih fun m hm => lt m (by simp [hm])]
    rfl

/-- Three bytes are four characters. -/
lemma length_split (b : Bytes) : (split b).length = (4 * b.length + 2) / 3 := by
  induction b using split.induct with
  | case1 a b c rest ih =>
    simp only [split, List.length_cons, ih]
    omega
  | case2 a b => simp [split]
  | case3 a => simp [split]
  | case4 => rfl

/-- A character is the character of its sextet. -/
lemma char_sextet {c : Char} {n : Nat} (h : sextet c = some n) : n < 64 ∧ char n = c := by
  simp only [sextet] at h
  have same : Char.ofNat c.toNat = c := Char.ofNat_toNat c
  split at h
  · cases h
    refine ⟨by omega, ?_⟩
    rw [char, if_pos (by omega), show c.toNat - 65 + 65 = c.toNat by omega, same]
  · split at h
    · cases h
      refine ⟨by omega, ?_⟩
      rw [char, if_neg (by omega), if_pos (by omega), show c.toNat - 71 + 71 = c.toNat by omega, same]
    · split at h
      · cases h
        refine ⟨by omega, ?_⟩
        rw [char, if_neg (by omega), if_neg (by omega), if_pos (by omega),
          show c.toNat + 4 - 4 = c.toNat by omega, same]
      · split at h
        · rename_i dash
          cases h
          exact ⟨by decide, dash ▸ rfl⟩
        · split at h
          · rename_i underscore
            cases h
            exact ⟨by decide, underscore ▸ rfl⟩
          · nomatch h

/-- The sextets of the bytes of sextets. -/
lemma split_join {ns : List Nat} {b : Bytes} (lt : ∀ n ∈ ns, n < 64) (h : join ns = some b) :
    split b = ns := by
  induction ns using join.induct generalizing b with
  | case1 w x y z rest ih =>
    simp only [List.forall_mem_cons] at lt
    obtain ⟨hw, hx, hy, hz, lt⟩ := lt
    simp only [join, Option.bind_eq_bind, Option.pure_def, Option.bind_eq_some_iff, Option.some.injEq] at h
    obtain ⟨bytes, hr, rfl⟩ := h
    simp only [split, ih lt hr, UInt8.toNat_ofNat', List.cons.injEq, and_true]
    omega
  | case2 w x y zero =>
    simp only [List.forall_mem_cons] at lt
    rw [join, if_pos zero] at h
    cases h
    simp only [split, UInt8.toNat_ofNat', List.cons.injEq, and_true]
    omega
  | case3 w x y nonzero =>
    rw [join, if_neg nonzero] at h
    nomatch h
  | case4 w x zero =>
    simp only [List.forall_mem_cons] at lt
    rw [join, if_pos zero] at h
    cases h
    simp only [split, UInt8.toNat_ofNat', List.cons.injEq, and_true]
    omega
  | case5 w x nonzero =>
    rw [join, if_neg nonzero] at h
    nomatch h
  | case6 w => nomatch h
  | case7 =>
    cases h
    rfl

/-- The characters of the sextets of characters. -/
lemma map_char {cs : List Char} {ns : List Nat} (h : cs.mapM sextet = some ns) :
    (∀ n ∈ ns, n < 64) ∧ ns.map char = cs := by
  induction cs generalizing ns with
  | nil =>
    cases h
    exact ⟨nofun, rfl⟩
  | cons c cs ih =>
    simp only [List.mapM_cons, Option.bind_eq_bind, Option.pure_def, Option.bind_eq_some_iff,
      Option.some.injEq] at h
    obtain ⟨n, first, ms, rest, rfl⟩ := h
    obtain ⟨lt, chars⟩ := ih rest
    obtain ⟨lt', char⟩ := char_sextet first
    exact ⟨List.forall_mem_cons.mpr ⟨lt', lt⟩, by rw [List.map_cons, char, chars]⟩

/-- Encoding undoes decoding: no two texts have the same bytes. -/
theorem encode_decode {s : String} {b : Bytes} (h : decode s = some b) : encode b = s := by
  simp only [decode, Option.bind_eq_bind, Option.bind_eq_some_iff] at h
  obtain ⟨ns, sextets, joined⟩ := h
  obtain ⟨lt, chars⟩ := map_char sextets
  rw [encode, split_join lt joined, chars, String.ofList_toList]

end Text.Base64url
