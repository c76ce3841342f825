import Mathlib

/-!
# Numbers as ECMAScript prints them

The finite IEEE 754 doubles, the double nearest to a rational number, and `Number::toString` of ECMA-262:
the fewest decimal digits that are read as the number. An integer below `2 ^ 53` is printed with all its
digits.
-/

namespace Ecma

/-- A finite double: at most 53 significant bits, and an exponent of the format. -/
def IsDouble (x : ℚ) : Prop :=
  ∃ m e : ℤ, |m| < 2 ^ 53 ∧ -1074 ≤ e ∧ e ≤ 971 ∧ x = m * 2 ^ e

/-- The last bit of the significand of a double is zero. -/
def IsEven (x : ℚ) : Prop :=
  ∃ m e : ℤ, Even m ∧ |m| < 2 ^ 53 ∧ (2 ^ 52 ≤ |m| ∨ e = -1074) ∧ x = m * 2 ^ e

/-- A number in the range of the doubles is read as the nearest one, and as the even one of two. -/
structure Rounds (r x : ℚ) : Prop where
  double : IsDouble x
  nearest : ∀ y, IsDouble y → |r - x| ≤ |r - y|
  tie : ∀ y, IsDouble y → y ≠ x → |r - x| = |r - y| → IsEven x

/-- A decimal of `k` digits `s`, with the decimal point after `n` of them, that is read as `x`. -/
structure Decimal (x : ℚ) (n : ℤ) (k s : ℕ) : Prop where
  pos : 1 ≤ k
  low : 10 ^ (k - 1) ≤ s
  high : s < 10 ^ k
  rounds : Rounds (s * 10 ^ (n - k)) x

/-- A decimal with as few digits as possible. -/
structure Fewest (x : ℚ) (n : ℤ) (k s : ℕ) : Prop extends Decimal x n k s where
  fewest : ∀ n' k' s', Decimal x n' k' s' → k ≤ k'

/-- The decimal that is printed: the nearest one of these. -/
structure Shortest (x : ℚ) (n : ℤ) (k s : ℕ) : Prop extends Fewest x n k s where
  closest : ∀ n' s', Decimal x n' k s' → |s * 10 ^ (n - k) - x| ≤ |s' * 10 ^ (n' - k) - x|

/-- How digits are laid out, with the decimal point after `n` of them. -/
def layout (n : ℤ) (digits : List Char) : List Char :=
  let k : ℤ := digits.length
  if k ≤ n ∧ n ≤ 21 then digits ++ List.replicate (n - k).toNat '0'
  else if 0 < n ∧ n ≤ 21 then digits.take n.toNat ++ '.' :: digits.drop n.toNat
  else if -6 < n ∧ n ≤ 0 then '0' :: '.' :: List.replicate (-n).toNat '0' ++ digits
  else
    let exponent := 'e' :: (if 0 ≤ n - 1 then '+' else '-') :: Nat.toDigits 10 (n - 1).natAbs
    match digits with
    | [d] => d :: exponent
    | ds => ds.take 1 ++ '.' :: ds.drop 1 ++ exponent

/-- `Number::toString` of a finite number. -/
inductive Prints : ℚ → List Char → Prop where
  | zero : Prints 0 ['0']
  | pos {x n k s} : 0 < x → Shortest x n k s → Prints x (layout n (Nat.toDigits 10 s))
  | neg {x text} : x < 0 → Prints (-x) text → Prints x ('-' :: text)

/-! ## Integers -/

/-- The integers below `2 ^ 53` are doubles. -/
lemma isDouble_int {i : ℤ} (h : |i| < 2 ^ 53) : IsDouble i :=
  ⟨i, 0, h, by decide, by decide, by simp⟩

/-- A double is read as itself. -/
lemma rounds_self {x : ℚ} (h : IsDouble x) : Rounds x x where
  double := h
  nearest y _ := by
    rw [sub_self, abs_zero]
    exact abs_nonneg _
  tie y _ ne e := by
    rw [sub_self, abs_zero] at e
    exact absurd (sub_eq_zero.mp (abs_eq_zero.mp e.symm)).symm ne

/-- And as nothing else. -/
lemma Rounds.eq_self {x y : ℚ} (h : IsDouble x) (r : Rounds x y) : y = x := by
  have le := r.nearest x h
  rw [sub_self, abs_zero] at le
  exact (sub_eq_zero.mp (abs_eq_zero.mp (le_antisymm le (abs_nonneg _)))).symm

/-- A number is not read as one that has a double in between. -/
lemma Rounds.le_of_le {r x y : ℚ} (h : Rounds r x) (d : IsDouble y) (le : r ≤ y) : x ≤ y := by
  by_contra above
  have near := h.nearest y d
  rw [abs_of_neg (by linarith), abs_of_nonpos (by linarith)] at near
  linarith

/-- Rounding does not pass a double. -/
lemma Rounds.ge_of_ge {r x y : ℚ} (h : Rounds r x) (d : IsDouble y) (le : y ≤ r) : y ≤ x := by
  by_contra under
  have near := h.nearest y d
  rw [abs_of_pos (by linarith), abs_of_nonneg (by linarith)] at near
  linarith

section Natural
variable {N : ℕ} {n : ℤ} {k s : ℕ}

/-- Integers up to 2^53 are doubles. -/
lemma isDouble_nat (h : N ≤ 2 ^ 53) : IsDouble N := by
  obtain lt | rfl := Nat.lt_or_eq_of_le h
  · have abs : |(N : ℤ)| < 2 ^ 53 := by
      rw [abs_of_nonneg (Int.natCast_nonneg _)]
      exact_mod_cast lt
    exact_mod_cast isDouble_int abs
  · exact ⟨1, 53, by norm_num, by norm_num, by norm_num, by norm_num⟩

/-- All digits of a number are one of its decimals. -/
lemma decimal_digits (pos : 0 < N) (lt : N < 2 ^ 53) :
    Decimal N (Nat.log 10 N + 1 : ℕ) (Nat.log 10 N + 1) N where
  pos := Nat.succ_le_succ (Nat.zero_le _)
  low := Nat.pow_log_le_self 10 pos.ne'
  high := Nat.lt_pow_succ_log_self (by decide) N
  rounds := by
    rw [sub_self, zpow_zero, mul_one]
    exact rounds_self (isDouble_nat lt.le)

/-- A power of ten has a decimal of one digit. -/
lemma decimal_power {j : ℕ} (lt : 10 ^ j < 2 ^ 53) : Decimal (10 ^ j : ℕ) (j + 1 : ℕ) 1 1 where
  pos := le_refl _
  low := le_refl _
  high := by decide
  rounds := by
    have e : ((1 : ℕ) : ℚ) * 10 ^ (((j + 1 : ℕ) : ℤ) - (1 : ℕ)) = (10 ^ j : ℕ) := by
      push_cast
      rw [add_sub_cancel_right, zpow_natCast, one_mul]
    rw [e]
    exact rounds_self (isDouble_nat lt.le)

/-- Below one there is a double that is nearer than one. -/
lemma not_rounds_one {r : ℚ} (h : r ≤ 9 / 10) : ¬ Rounds r 1 := fun rounds => by
  have double : IsDouble (7 / 8) := ⟨7, -3, by norm_num, by norm_num, by norm_num, by norm_num⟩
  have near := rounds.nearest _ double
  rw [abs_of_neg (by linarith)] at near
  obtain le | le := abs_cases (r - 7 / 8)
  · linarith
  · linarith

/-- A decimal is less than the power of ten after its point. -/
lemma Decimal.lt_power {x : ℚ} (h : Decimal x n k s) : (s : ℚ) * 10 ^ (n - k) < 10 ^ n := by
  have high : (s : ℚ) < 10 ^ k := by exact_mod_cast h.high
  calc (s : ℚ) * 10 ^ (n - k) < 10 ^ k * 10 ^ (n - k) := by gcongr
    _ = 10 ^ n := by
      rw [← zpow_natCast, ← zpow_add₀ (by norm_num)]
      congr 1
      ring

/-- With the fewest digits, a natural number below `2 ^ 53` has none after the point. -/
lemma Fewest.le (h : Fewest N n k s) (pos : 0 < N) (lt : N < 2 ^ 53) : (k : ℤ) ≤ n := by
  by_contra frac
  rw [not_le] at frac
  have below := h.toDecimal.lt_power
  obtain small | large := le_or_gt n 0
  · -- then it is less than one, so the number is one, and one digit is enough
    have one : IsDouble (1 : ℕ) := isDouble_nat (by decide)
    have le_one : (10 : ℚ) ^ n ≤ 1 := zpow_le_one_of_nonpos₀ (by norm_num) small
    have le : (N : ℚ) ≤ (1 : ℕ) := h.rounds.le_of_le one (by push_cast; linarith)
    obtain rfl : N = 1 := by
      have : N ≤ 1 := by exact_mod_cast le
      omega
    have fewer := h.fewest _ _ _ (decimal_power (j := 0) (by decide))
    obtain rfl : k = 1 := le_antisymm fewer h.pos
    refine not_rounds_one ?_ (by exact_mod_cast h.rounds)
    have digit : (s : ℚ) ≤ 9 := by
      have := h.high
      exact_mod_cast (by omega : s ≤ 9)
    have tenth : (10 : ℚ) ^ (n - (1 : ℕ)) ≤ 10 ^ (-1 : ℤ) :=
      zpow_le_zpow_right₀ (by norm_num) (by push_cast; omega)
    have positive : (0 : ℚ) < 10 ^ (n - (1 : ℕ)) := by positivity
    calc (s : ℚ) * 10 ^ (n - (1 : ℕ)) ≤ 9 * 10 ^ (-1 : ℤ) := by gcongr
      _ = 9 / 10 := by norm_num
  · -- then the number is a power of ten, and one digit is enough
    obtain ⟨j, rfl⟩ := Int.eq_ofNat_of_zero_le large.le
    have fewer := h.fewest _ _ _ (decimal_digits pos lt)
    have le_log : j ≤ Nat.log 10 N := by omega
    have le : 10 ^ j ≤ N := le_trans (Nat.pow_le_pow_right (by decide) le_log) (Nat.pow_log_le_self 10 pos.ne')
    have power : IsDouble (10 ^ j : ℕ) := isDouble_nat (le.trans lt.le)
    have ge : (N : ℚ) ≤ (10 ^ j : ℕ) := h.rounds.le_of_le power (by
      push_cast
      rw [← zpow_natCast]
      exact below.le)
    obtain rfl : N = 10 ^ j := le_antisymm (by exact_mod_cast ge) le
    have := h.fewest _ _ _ (decimal_power lt)
    omega

/-- And these digits are its own. -/
lemma Fewest.value (h : Fewest N n k s) (pos : 0 < N) (lt : N < 2 ^ 53) : s * 10 ^ (n - k).toNat = N := by
  have le := h.le pos lt
  have whole : (s : ℚ) * 10 ^ (n - k) = (s * 10 ^ (n - k).toNat : ℕ) := by
    push_cast
    rw [← zpow_natCast, Int.toNat_of_nonneg (by omega)]
  have rounds := h.rounds
  rw [whole] at rounds
  by_cases small : s * 10 ^ (n - k).toNat < 2 ^ 53
  · exact_mod_cast (rounds.eq_self (isDouble_nat small.le)).symm
  · have ge : ((2 ^ 53 : ℕ) : ℚ) ≤ N :=
      rounds.ge_of_ge (isDouble_nat (le_refl _)) (by exact_mod_cast not_lt.mp small)
    have : 2 ^ 53 ≤ N := by exact_mod_cast ge
    omega

/-- So it is the decimal itself. -/
lemma Fewest.eq (h : Fewest N n k s) (pos : 0 < N) (lt : N < 2 ^ 53) : (s : ℚ) * 10 ^ (n - k) = N := by
  have le := h.le pos lt
  rw [← h.value pos lt]
  push_cast
  rw [← zpow_natCast (10 : ℚ), Int.toNat_of_nonneg (by omega)]

/-- Such a number has a shortest decimal. -/
lemma exists_shortest (pos : 0 < N) (lt : N < 2 ^ 53) : ∃ n k s, Shortest N n k s := by
  classical
  have some : ∃ k n s, Decimal N n k s := ⟨_, _, _, decimal_digits pos lt⟩
  obtain ⟨n, s, d⟩ := Nat.find_spec some
  have f : Fewest N n (Nat.find some) s :=
    { d with fewest := fun n' k' s' d' => Nat.find_min' some ⟨n', s', d'⟩ }
  refine ⟨n, _, s, { f with closest := fun n' s' _ => ?_ }⟩
  rw [f.eq pos lt, sub_self, abs_zero]
  exact abs_nonneg _

/-- Zeros at the end of a number. -/
lemma toDigits_mul_power (pos : 0 < s) (j : ℕ) :
    Nat.toDigits 10 (s * 10 ^ j) = Nat.toDigits 10 s ++ List.replicate j '0' := by
  induction j with
  | zero => simp
  | succ j ih =>
    have power : 0 < s * 10 ^ j := by positivity
    have e : s * 10 ^ (j + 1) = 10 * (s * 10 ^ j) := by ring
    rw [e, Nat.toDigits_of_base_le (by decide) (by omega), Nat.mul_div_cancel_left _ (by decide),
      Nat.mul_mod_right, ih, List.replicate_succ', List.append_assoc]
    rfl

/-- The digits are as many as they are. -/
lemma Decimal.length {x : ℚ} (h : Decimal x n k s) : (Nat.toDigits 10 s).length = k := by
  have pos := h.pos
  have le : (Nat.toDigits 10 s).length ≤ k := (Nat.length_toDigits_le_iff (by decide) pos).mpr h.high
  refine le_antisymm le (not_lt.mp fun lt => ?_)
  have few : s < 10 ^ (k - 1) := by
    obtain one | more := Nat.eq_or_lt_of_le pos
    · have nonempty : 0 < (Nat.toDigits 10 s).length := List.length_pos_of_ne_nil Nat.toDigits_ne_nil
      omega
    · exact (Nat.length_toDigits_le_iff (by decide) (by omega)).mp (by omega)
  exact absurd h.low (not_le.mpr few)

/-- The layout of the shortest decimal is the plain one. -/
lemma Shortest.layout (h : Shortest N n k s) (pos : 0 < N) (lt : N < 2 ^ 53) :
    layout n (Nat.toDigits 10 s) = Nat.toDigits 10 N := by
  have le := h.le pos lt
  have value := h.value pos lt
  have digit : 0 < s := lt_of_lt_of_le (by positivity) h.low
  have power : 10 ^ (k - 1) * 10 ^ (n - k).toNat ≤ N := by
    rw [← value]
    exact Nat.mul_le_mul_right _ h.low
  have short : n ≤ 21 := by
    by_contra long
    have k_pos := h.pos
    rw [← pow_add] at power
    have : 10 ^ 21 ≤ 10 ^ (k - 1 + (n - k).toNat) := Nat.pow_le_pow_right (by decide) (by omega)
    have large : 2 ^ 53 < 10 ^ 21 := by decide
    omega
  rw [Ecma.layout, h.length, if_pos ⟨le, short⟩, ← toDigits_mul_power digit, value]

end Natural

/-- The text of an integer below `2 ^ 53`. -/
def decimal (i : ℤ) : List Char :=
  if i < 0 then '-' :: Nat.toDigits 10 i.natAbs else Nat.toDigits 10 i.natAbs

/-- A natural number below `2 ^ 53` is printed with its digits. -/
lemma prints_nat {N : ℕ} (pos : 0 < N) (lt : N < 2 ^ 53) {text : List Char} :
    Prints N text ↔ text = Nat.toDigits 10 N := by
  have positive : (0 : ℚ) < N := by exact_mod_cast pos
  refine ⟨fun p => ?_, fun e => ?_⟩
  · generalize hx : (N : ℚ) = x at p
    cases p with
    | zero => exact absurd hx positive.ne'
    | pos _ h =>
      subst hx
      exact h.layout pos lt
    | neg lt => exact absurd (hx ▸ lt) (not_lt.mpr positive.le)
  · obtain ⟨n, k, s, h⟩ := exists_shortest pos lt
    rw [e, ← h.layout pos lt]
    exact .pos positive h

/-- An integer below `2 ^ 53` is printed with all its digits, and in no other way. -/
theorem prints_int {i : ℤ} (h : |i| < 2 ^ 53) {text : List Char} :
    (∃ x, Rounds i x ∧ Prints x text) ↔ text = decimal i := by
  have double := isDouble_int h
  have abs : i.natAbs < 2 ^ 53 := by
    rw [Int.abs_eq_natAbs] at h
    exact_mod_cast h
  have itself : (∃ x, Rounds i x ∧ Prints x text) ↔ Prints i text :=
    ⟨fun ⟨_, r, p⟩ => r.eq_self double ▸ p, fun p => ⟨i, rounds_self double, p⟩⟩
  rw [itself, decimal]
  obtain neg | rfl | pos := lt_trichotomy i 0
  · obtain ⟨N, e⟩ := Int.eq_ofNat_of_zero_le (Int.neg_nonneg_of_nonpos neg.le)
    obtain rfl : i = -(N : ℤ) := by omega
    have negative : ((-(N : ℤ) : ℤ) : ℚ) < 0 := by exact_mod_cast neg
    have opposite : -((-(N : ℤ) : ℤ) : ℚ) = N := by simp
    rw [Int.natAbs_neg, Int.natAbs_natCast] at abs ⊢
    rw [if_pos neg]
    refine ⟨fun p => ?_, fun e => ?_⟩
    · generalize hx : ((-(N : ℤ) : ℤ) : ℚ) = x at p
      cases p with
      | zero => exact absurd hx negative.ne
      | pos lt _ => exact absurd (hx ▸ lt) (not_lt.mpr negative.le)
      | neg _ p =>
        rw [← hx, opposite] at p
        exact congrArg _ ((prints_nat (by omega) abs).mp p)
    · rw [e]
      refine .neg negative ?_
      rw [opposite]
      exact (prints_nat (by omega) abs).mpr rfl
  · rw [if_neg (lt_irrefl 0), Int.cast_zero]
    refine ⟨fun p => ?_, fun e => e ▸ .zero⟩
    generalize hx : (0 : ℚ) = x at p
    cases p with
    | zero => rfl
    | pos lt _ => exact absurd hx lt.ne
    | neg lt _ => exact absurd hx lt.ne'
  · obtain ⟨N, rfl⟩ := Int.eq_ofNat_of_zero_le pos.le
    rw [Int.natAbs_natCast] at abs ⊢
    rw [if_neg (not_lt.mpr pos.le), Int.cast_natCast]
    exact prints_nat (by omega) abs

end Ecma
