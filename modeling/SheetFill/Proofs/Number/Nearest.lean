import Mathlib.Algebra.Order.Field.Power
import Mathlib.Data.Rat.Cast.Order
import Mathlib.Tactic.FieldSimp
import Mathlib.Tactic.Linarith
import Mathlib.Tactic.NormNum
import Mathlib.Tactic.Positivity
import Mathlib.Tactic.Ring
import SheetFill.Number.Binary64

/-!
# The nearest number

A finite number has a value, which is a whole number of steps of its exponent. The quotient of two
whole numbers is rounded in the exponent in which it fills a significand (`Fits`). No number in a
coarser exponent is between the steps of this one, and the numbers in a finer exponent are all below
the quotient by a step and more; so the nearest step is the nearest number (`rounds_ofRatio`). A
quotient that is a number is not changed (`value_ofRatio_of_whole`).
-/

namespace SheetFill.Binary64

/-! ## Values -/

/-- The value of a finite number. -/
def value (x : Binary64) : ℚ :=
  match x.magnitude? with
  | some (m, q) => (if x.isNegative then -1 else 1) * (m * 2 ^ q)
  | none => 0

/-- A number is the rounded value of a rational number: no number is nearer to it, and of two that
are equally near it is the one whose last bit is 0. -/
structure Rounds (x : Binary64) (v : ℚ) : Prop where
  /-- The number is finite. -/
  finite : x.isFinite = true
  /-- No number is nearer. -/
  nearest : ∀ y : Binary64, y.isFinite = true → |x.value - v| ≤ |y.value - v|
  /-- If another one is as near, then the last bit is 0. -/
  even : ∀ y : Binary64, y.isFinite = true → y.value ≠ x.value → |y.value - v| = |x.value - v| →
    x.magnitudeBits % 2 = 0

theorem two_zpow_pos (q : Int) : (0 : ℚ) < 2 ^ q := zpow_pos (by norm_num) q

/-- The value of a finite number is a whole number of at most 53 bits, in steps of its exponent. -/
theorem exists_value_eq {x : Binary64} (finite : x.isFinite = true) :
    ∃ (k q : Int), x.value = k * 2 ^ q ∧ |(k : ℚ)| < 2 ^ 53 ∧ -1074 ≤ q := by
  obtain ⟨m, q, found, small, low⟩ : ∃ (m : Nat) (q : Int), x.magnitude? = some (m, q) ∧
      m < 2 ^ 53 ∧ -1074 ≤ q := by
    have fraction : x.magnitudeBits % fieldUnit < fieldUnit := Nat.mod_lt _ (by decide)
    have unit : fieldUnit + fieldUnit = 2 ^ 53 := by decide
    have field := Int.natCast_nonneg (x.magnitudeBits / fieldUnit)
    simp only [magnitude?, finite, if_true]
    split
    · exact ⟨_, _, rfl, by omega, by omega⟩
    · exact ⟨_, _, rfl, by omega, by omega⟩
  have small' : (m : ℚ) < 2 ^ 53 := by exact_mod_cast small
  have size : |((m : Int) : ℚ)| < 2 ^ 53 := by
    rw [Int.cast_natCast, abs_of_nonneg (Nat.cast_nonneg m)]
    exact small'
  rw [value, found]
  by_cases negative : x.isNegative
  · refine ⟨-m, q, ?_, by rw [Int.cast_neg, abs_neg]; exact size, low⟩
    simp [negative]
  · exact ⟨m, q, by simp [negative], size, low⟩

theorem magnitudeBits_ofFields {bits : Nat} (small : bits < infinityBits) :
    (ofFields false bits).magnitudeBits = bits := by
  simp only [infinityBits, fieldUnit] at small
  simp only [ofFields, magnitudeBits, signUnit, Bool.false_eq_true, if_false, Nat.add_zero,
    UInt64.toNat_ofNat']
  omega

theorem isNegative_ofFields {bits : Nat} (small : bits < infinityBits) :
    (ofFields false bits).isNegative = false := by
  simp only [infinityBits, fieldUnit] at small
  simp only [ofFields, isNegative, signUnit, Bool.false_eq_true, if_false, Nat.add_zero,
    UInt64.toNat_ofNat', decide_eq_false_iff_not]
  omega

theorem isFinite_ofFields {bits : Nat} (small : bits < infinityBits) :
    (ofFields false bits).isFinite = true := by
  rw [isFinite, magnitudeBits_ofFields small]
  exact decide_eq_true small

theorem magnitude?_ofFields {bits : Nat} (small : bits < infinityBits) :
    (ofFields false bits).magnitude? =
      some (if bits / fieldUnit = 0 then (bits % fieldUnit, (-1074 : Int))
        else (bits % fieldUnit + fieldUnit, ((bits / fieldUnit : Nat) : Int) - 1075)) := by
  simp only [magnitude?, isFinite_ofFields small, magnitudeBits_ofFields small, if_true]

theorem value_of_magnitude? {x : Binary64} {m : Nat} {q : Int}
    (found : x.magnitude? = some (m, q)) (plus : x.isNegative = false) :
    x.value = m * 2 ^ q := by
  simp [value, found, plus]

/-- The bits of a significand and its exponent, also of a significand of one bit too many, which is
one in the next exponent. -/
theorem value_ofFields {r step : Nat} (atMost : r ≤ 2 ^ 53) (full : 2 ^ 52 ≤ r ∨ step = 0)
    (small : step * fieldUnit + r < infinityBits) :
    (ofFields false (step * fieldUnit + r)).value = r * 2 ^ ((step : Int) - 1074) := by
  have plus := isNegative_ofFields small
  have found := magnitude?_ofFields small
  clear small
  have unit : fieldUnit = 4503599627370496 := rfl
  by_cases short : r < 2 ^ 52
  · have first : step = 0 := by omega
    have field : (step * fieldUnit + r) / fieldUnit = 0 := by
      rw [unit]
      omega
    have fraction : (step * fieldUnit + r) % fieldUnit = r := by
      rw [unit]
      omega
    rw [if_pos field, fraction] at found
    rw [value_of_magnitude? found plus, first, Nat.cast_zero, zero_sub]
  · by_cases carry : r = 2 ^ 53
    · have field : (step * fieldUnit + r) / fieldUnit = step + 2 := by
        rw [unit]
        omega
      have fraction : (step * fieldUnit + r) % fieldUnit = 0 := by
        rw [unit]
        omega
      have next : ((step + 2 : Nat) : Int) - 1075 = 1 + ((step : Int) - 1074) := by omega
      have double : ((0 + fieldUnit : Nat) : ℚ) * 2 = r := by
        rw [unit, carry]
        norm_num
      rw [field, if_neg (by omega), fraction, next] at found
      rw [value_of_magnitude? found plus, zpow_one_add₀ (by norm_num), ← mul_assoc, double]
    · have field : (step * fieldUnit + r) / fieldUnit = step + 1 := by
        rw [unit]
        omega
      have fraction : (step * fieldUnit + r) % fieldUnit + fieldUnit = r := by
        rw [unit]
        omega
      have same : ((step + 1 : Nat) : Int) - 1075 = (step : Int) - 1074 := by omega
      rw [field, if_neg (by omega), fraction, same] at found
      exact value_of_magnitude? found plus

/-! ## The nearest whole number -/

/-- A whole number is at most half away from a rational number, and it is even if it is exactly
that far away. -/
structure IsNearest (r : Nat) (w : ℚ) : Prop where
  /-- It is at most half away. -/
  half : |(r : ℚ) - w| ≤ 1 / 2
  /-- A tie goes to the even number. -/
  even : |(r : ℚ) - w| = 1 / 2 → r % 2 = 0

theorem roundedQuotient_cases (num den : Nat) :
    (roundedQuotient num den = num / den ∧ 2 * (num % den) ≤ den ∧
      (2 * (num % den) = den → roundedQuotient num den % 2 = 0)) ∨
    (roundedQuotient num den = num / den + 1 ∧ den ≤ 2 * (num % den) ∧
      (2 * (num % den) = den → roundedQuotient num den % 2 = 0)) := by
  simp only [roundedQuotient]
  split
  · omega
  · split
    · omega
    · omega

theorem isNearest_roundedQuotient (num : Nat) {den : Nat} (positive : 0 < den) :
    IsNearest (roundedQuotient num den) ((num : ℚ) / den) := by
  have den_pos : (0 : ℚ) < den := by exact_mod_cast positive
  have whole : (den : ℚ) * (num / den : Nat) + (num % den : Nat) = num := by
    exact_mod_cast Nat.div_add_mod num den
  have split : (num : ℚ) / den = (num / den : Nat) + (num % den : Nat) / den := by
    rw [← whole]
    field_simp
  have least {n : Nat} (h : 2 * n ≤ den) : (n : ℚ) / den ≤ 1 / 2 := by
    have : (2 : ℚ) * n ≤ den := by exact_mod_cast h
    rw [div_le_iff₀ den_pos]
    linarith
  have most {n : Nat} (h : den ≤ 2 * n) : 1 / 2 ≤ (n : ℚ) / den := by
    have : (den : ℚ) ≤ 2 * n := by exact_mod_cast h
    rw [le_div_iff₀ den_pos]
    linarith
  have tie {n : Nat} (h : (n : ℚ) / den = 1 / 2) : 2 * n = den := by
    rw [div_eq_iff den_pos.ne'] at h
    have : (2 : ℚ) * n = den := by linarith
    exact_mod_cast this
  have nonneg : (0 : ℚ) ≤ (num % den : Nat) / den := by positivity
  have below : ((num % den : Nat) : ℚ) / den ≤ 1 := by
    rw [div_le_one den_pos]
    exact_mod_cast (Nat.mod_lt num positive).le
  rcases roundedQuotient_cases num den with ⟨down, small, even⟩ | ⟨up, large, even⟩
  · have away : |(roundedQuotient num den : ℚ) - num / den| = (num % den : Nat) / den := by
      rw [down, split, sub_add_cancel_left, abs_neg, abs_of_nonneg nonneg]
    exact ⟨away ▸ least small, fun half => even (tie (away ▸ half))⟩
  · have away : |(roundedQuotient num den : ℚ) - num / den| = 1 - (num % den : Nat) / den := by
      rw [up, split, Nat.cast_add_one, add_sub_add_left_eq_sub, abs_of_nonneg (by linarith)]
    refine ⟨?_, fun half => even (tie ?_)⟩
    · have := most large
      linarith
    · linarith

/-- No whole number is nearer, and another one is as near only in a tie. -/
theorem IsNearest.le {r : Nat} {w : ℚ} (near : IsNearest r w) (k : Int) :
    |(r : ℚ) - w| ≤ |(k : ℚ) - w| ∧
      (k ≠ r → |(k : ℚ) - w| = |(r : ℚ) - w| → |(r : ℚ) - w| = 1 / 2) := by
  by_cases same : k = r
  · subst same
    exact ⟨le_refl _, fun other => absurd rfl other⟩
  · have apart : (1 : ℚ) ≤ |(k : ℚ) - r| := by
      have : (1 : Int) ≤ |k - r| := Int.one_le_abs (sub_ne_zero.mpr same)
      exact_mod_cast this
    have detour : |(k : ℚ) - r| ≤ |(k : ℚ) - w| + |(r : ℚ) - w| := by
      rw [abs_sub_comm (r : ℚ) w]
      exact abs_sub_le _ _ _
    have half := near.half
    exact ⟨by linarith, fun _ tie => by linarith⟩

/-- A whole number is its own nearest one. -/
theorem IsNearest.eq {r n : Nat} (near : IsNearest r n) : r = n := by
  by_contra other
  have apart : (1 : ℚ) ≤ |(r : ℚ) - n| := by
    have : (1 : Int) ≤ |(r : Int) - n| := Int.one_le_abs (sub_ne_zero.mpr (by exact_mod_cast other))
    exact_mod_cast this
  have half := near.half
  linarith

/-! ## The exponent of a quotient -/

/-- In an exponent a value has no more bits than a significand, and no fewer unless no exponent is
lower. -/
structure Fits (v : ℚ) (q : Int) : Prop where
  /-- The exponent is one of the format. -/
  low : -1074 ≤ q
  /-- There are at most 53 bits. -/
  lt : v < 2 ^ 53 * 2 ^ q
  /-- There are 53 bits, or the exponent is the lowest. -/
  full : 2 ^ 52 * 2 ^ q ≤ v ∨ q = -1074

theorem scaled_eq (num : Nat) {den : Nat} (positive : 0 < den) (q : Int) :
    0 < (scaled num den q).2 ∧
      ((scaled num den q).1 : ℚ) / (scaled num den q).2 = num / den / 2 ^ q := by
  have den_pos : (0 : ℚ) < den := by exact_mod_cast positive
  rw [scaled]
  split
  · rename_i up
    obtain ⟨n, rfl⟩ := Int.eq_ofNat_of_zero_le up
    refine ⟨Nat.mul_pos positive (Nat.pow_pos (by decide)), ?_⟩
    simp only [Int.toNat_natCast, Nat.pow_eq, Nat.cast_mul, Nat.cast_pow,
      Nat.cast_ofNat, zpow_natCast, div_div]
  · rename_i down
    obtain ⟨n, rfl⟩ : ∃ n : Nat, q = -n := ⟨(-q).toNat, by omega⟩
    refine ⟨positive, ?_⟩
    simp only [neg_neg, Int.toNat_natCast, Nat.pow_eq, Nat.cast_mul, Nat.cast_pow,
      Nat.cast_ofNat, zpow_neg, zpow_natCast, div_inv_eq_mul]
    ring

/-- The whole part of a quotient in steps has at most 53 bits exactly if the quotient has. -/
theorem scaled_lt_iff (num : Nat) {den : Nat} (den_pos : 0 < den) (q : Int) :
    (scaled num den q).1 / (scaled num den q).2 < 2 * fieldUnit ↔
      (num : ℚ) / den < 2 ^ 53 * 2 ^ q := by
  obtain ⟨positive, quotient⟩ := scaled_eq num den_pos q
  have positive' : (0 : ℚ) < (scaled num den q).2 := by exact_mod_cast positive
  have unit : 2 * fieldUnit = 2 ^ 53 := by decide
  rw [Nat.div_lt_iff_lt_mul positive, unit, ← div_lt_iff₀ (two_zpow_pos q), ← quotient,
    div_lt_iff₀ positive', ← @Nat.cast_lt ℚ]
  push_cast
  rfl

/-- A value below a power of two has an exponent that much lower, or the lowest one. -/
theorem Fits.exponent_lt {v : ℚ} {q : Int} (fits : Fits v q) {n : Nat} (small : v < 2 ^ n) :
    q + 52 < n ∨ q = -1074 := by
  refine fits.full.imp_left fun full => ?_
  have powers : (2 : ℚ) ^ ((52 : Nat) + q) < 2 ^ (n : Int) := by
    rw [zpow_add₀ (by norm_num), zpow_natCast, zpow_natCast]
    exact lt_of_le_of_lt full small
  have := (zpow_lt_zpow_iff_right₀ (by norm_num : (1 : ℚ) < 2)).mp powers
  omega

/-- The exponent in which a quotient is rounded. -/
def quotientStep (num den : Nat) : Int :=
  let estimate : Int := (num.log2 : Int) - (den.log2 : Int) - 53
  let low : Int := if estimate < -1074 then -1074 else estimate
  let (n, d) := scaled num den low
  if n / d < 2 * fieldUnit then low else low + 1

theorem ratioBits_eq (num den : Nat) :
    ratioBits num den =
      let q := quotientStep num den
      let bits := (q + 1074).toNat * fieldUnit +
        roundedQuotient (scaled num den q).1 (scaled num den q).2
      if bits < infinityBits then bits else infinityBits := rfl

/-- The logarithms of numerator and denominator bound the quotient. -/
theorem quotient_bounds {num den : Nat} (num_pos : 0 < num) (den_pos : 0 < den) :
    (2 : ℚ) ^ ((num.log2 : Int) - den.log2 - 1) < num / den ∧
      (num : ℚ) / den < 2 ^ ((num.log2 : Int) - den.log2 + 1) := by
  have num_low : (2 : ℚ) ^ (num.log2 : Int) ≤ num := by
    rw [zpow_natCast]
    exact_mod_cast Nat.log2_self_le num_pos.ne'
  have num_high : (num : ℚ) < 2 ^ ((num.log2 : Int) + 1) := by
    have : num < 2 ^ (num.log2 + 1) := Nat.lt_log2_self
    exact_mod_cast this
  have den_low : (2 : ℚ) ^ (den.log2 : Int) ≤ den := by
    rw [zpow_natCast]
    exact_mod_cast Nat.log2_self_le den_pos.ne'
  have den_high : (den : ℚ) < 2 ^ ((den.log2 : Int) + 1) := by
    have : den < 2 ^ (den.log2 + 1) := Nat.lt_log2_self
    exact_mod_cast this
  have positive : (0 : ℚ) < den := by exact_mod_cast den_pos
  constructor
  · rw [lt_div_iff₀ positive]
    calc (2 : ℚ) ^ ((num.log2 : Int) - den.log2 - 1) * den
        < 2 ^ ((num.log2 : Int) - den.log2 - 1) * 2 ^ ((den.log2 : Int) + 1) :=
          mul_lt_mul_of_pos_left den_high (two_zpow_pos _)
      _ = 2 ^ (num.log2 : Int) := by
          rw [← zpow_add₀ (by norm_num)]
          congr 1
          ring
      _ ≤ num := num_low
  · rw [div_lt_iff₀ positive]
    calc (num : ℚ) < 2 ^ ((num.log2 : Int) + 1) := num_high
      _ = 2 ^ ((num.log2 : Int) - den.log2 + 1) * 2 ^ (den.log2 : Int) := by
          rw [← zpow_add₀ (by norm_num)]
          congr 1
          ring
      _ ≤ 2 ^ ((num.log2 : Int) - den.log2 + 1) * den :=
          mul_le_mul_of_nonneg_left den_low (two_zpow_pos _).le

theorem fits_quotientStep {num den : Nat} (num_pos : 0 < num) (den_pos : 0 < den) :
    Fits ((num : ℚ) / den) (quotientStep num den) := by
  obtain ⟨above, below⟩ := quotient_bounds num_pos den_pos
  rw [quotientStep]
  set estimate : Int := (num.log2 : Int) - den.log2 - 53 with estimate_def
  set low : Int := if estimate < -1074 then -1074 else estimate with low_def
  have low_cases : low = estimate ∧ -1074 ≤ estimate ∨ low = -1074 ∧ estimate ≤ -1074 := by
    rw [low_def]
    split
    · omega
    · omega
  have short_iff := scaled_lt_iff num den_pos low
  have upper : (2 : ℚ) ^ ((num.log2 : Int) - den.log2 + 1) ≤ 2 ^ 53 * 2 ^ (low + 1) := by
    rw [← zpow_natCast, ← zpow_add₀ (by norm_num)]
    exact zpow_le_zpow_right₀ (by norm_num) (by push_cast; omega)
  have next : (2 : ℚ) ^ 52 * 2 ^ (low + 1) = 2 ^ 53 * 2 ^ low := by
    rw [zpow_add_one₀ (by norm_num)]
    ring
  show Fits _ (if (scaled num den low).1 / (scaled num den low).2 < 2 * fieldUnit then low
    else low + 1)
  split
  · rename_i short
    refine ⟨by omega, short_iff.mp short, ?_⟩
    rcases low_cases with ⟨same, -⟩ | ⟨lowest, -⟩
    · have here : (2 : ℚ) ^ 52 * 2 ^ low = 2 ^ ((num.log2 : Int) - den.log2 - 1) := by
        rw [← zpow_natCast, ← zpow_add₀ (by norm_num)]
        congr 1
        push_cast
        omega
      exact .inl (here ▸ above.le)
    · exact .inr lowest
  · rename_i long
    refine ⟨by omega, lt_of_lt_of_le below upper, .inl ?_⟩
    rw [next]
    exact not_lt.mp fun short => long (short_iff.mpr short)

/-! ## The nearest number -/

section Nearest

variable {v : ℚ} {q : Int} {r : Nat}

theorem abs_steps (k : ℚ) (v : ℚ) (q : Int) : |k * 2 ^ q - v| = |k - v / 2 ^ q| * 2 ^ q := by
  have positive := two_zpow_pos q
  have steps : k * 2 ^ q - v = (k - v / 2 ^ q) * 2 ^ q := by field_simp
  rw [steps, abs_mul, abs_of_pos positive]

/-- The nearest whole number of steps is the nearest number, and another one is as near only in a
tie. -/
theorem Fits.le (fits : Fits v q) (near : IsNearest r (v / 2 ^ q)) {y : Binary64}
    (finite : y.isFinite = true) :
    |(r : ℚ) * 2 ^ q - v| ≤ |y.value - v| ∧
      (y.value ≠ r * 2 ^ q → |y.value - v| = |(r : ℚ) * 2 ^ q - v| →
        |(r : ℚ) - v / 2 ^ q| = 1 / 2) := by
  have positive := two_zpow_pos q
  obtain ⟨k, p, value, size, low⟩ := exists_value_eq finite
  by_cases coarse : q ≤ p
  · -- A number in a coarser exponent is a whole number of steps as well.
    obtain ⟨n, rfl⟩ : ∃ n : Nat, p = n + q := ⟨(p - q).toNat, by omega⟩
    have whole : y.value = ((k * 2 ^ n : Int) : ℚ) * 2 ^ q := by
      rw [value, zpow_add₀ (by norm_num), zpow_natCast]
      push_cast
      ring
    obtain ⟨least, tie⟩ := near.le (k * 2 ^ n)
    rw [whole, abs_steps, abs_steps]
    refine ⟨mul_le_mul_of_nonneg_right least positive.le, fun other same => tie ?_ ?_⟩
    · rintro same
      exact other (by rw [same, Int.cast_natCast])
    · exact mul_right_cancel₀ positive.ne' same
  · -- A number in a finer exponent is below all values that fill a significand.
    have full : 2 ^ 52 * 2 ^ q ≤ v := fits.full.resolve_right (by omega)
    have top : (2 : ℚ) ^ 53 * 2 ^ p ≤ 2 ^ 52 * 2 ^ q := by
      have : (2 : ℚ) ^ 53 * 2 ^ p = 2 ^ 52 * 2 ^ (p + 1) := by
        rw [zpow_add_one₀ (by norm_num)]
        ring
      rw [this]
      exact mul_le_mul_of_nonneg_left (zpow_le_zpow_right₀ (by norm_num) (by omega)) (by norm_num)
    have below : y.value < 2 ^ 52 * 2 ^ q := by
      rw [value]
      calc (k : ℚ) * 2 ^ p ≤ |(k : ℚ)| * 2 ^ p :=
            mul_le_mul_of_nonneg_right (le_abs_self _) (two_zpow_pos p).le
        _ < 2 ^ 53 * 2 ^ p := mul_lt_mul_of_pos_right size (two_zpow_pos p)
        _ ≤ 2 ^ 52 * 2 ^ q := top
    have least := (near.le (2 ^ 52)).1
    rw [Int.cast_pow, Int.cast_ofNat] at least
    have steps := mul_le_mul_of_nonneg_right least positive.le
    rw [← abs_steps, ← abs_steps] at steps
    have gap : |(2 : ℚ) ^ 52 * 2 ^ q - v| = v - 2 ^ 52 * 2 ^ q := by
      rw [abs_sub_comm, abs_of_nonneg (by linarith)]
    rw [gap] at steps
    have distance : |y.value - v| = v - y.value := by
      rw [abs_sub_comm, abs_of_nonneg (by linarith)]
    rw [distance]
    exact ⟨by linarith, fun _ same => by linarith⟩

end Nearest

section Ratio

variable {num den : Nat}

/-- What the number of a quotient is made of. -/
theorem exists_ofRatio (num_pos : 0 < num) (den_pos : 0 < den)
    (small : (num : ℚ) / den < 2 ^ 1023) :
    ∃ (q : Int) (r : Nat), Fits ((num : ℚ) / den) q ∧ IsNearest r ((num : ℚ) / den / 2 ^ q) ∧
      (ofRatio false num den).value = r * 2 ^ q ∧ (ofRatio false num den).isFinite = true ∧
      (ofRatio false num den).magnitudeBits % 2 = r % 2 := by
  have fits := fits_quotientStep num_pos den_pos
  obtain ⟨positive, quotient⟩ := scaled_eq num den_pos (quotientStep num den)
  have near := isNearest_roundedQuotient (scaled num den (quotientStep num den)).1 positive
  rw [quotient] at near
  have bits := ratioBits_eq num den
  simp only at bits
  revert fits near bits
  generalize roundedQuotient _ _ = r
  generalize quotientStep num den = q
  intro fits near bits
  have step_pos := two_zpow_pos q
  have atMost : r ≤ 2 ^ 53 := by
    have : (num : ℚ) / den / 2 ^ q < 2 ^ 53 := (div_lt_iff₀ step_pos).mpr fits.lt
    have := (abs_le.mp near.half).2
    have : (r : ℚ) < 2 ^ 53 + 1 := by linarith
    exact Nat.lt_succ_iff.mp (by exact_mod_cast this)
  have full : 2 ^ 52 ≤ r ∨ (q + 1074).toNat = 0 := by
    rcases fits.full with full | lowest
    · have : (2 : ℚ) ^ 52 ≤ num / den / 2 ^ q := (le_div_iff₀ step_pos).mpr full
      have := (abs_le.mp near.half).1
      have : (2 : ℚ) ^ 52 < r + 1 := by linarith
      exact .inl (Nat.lt_succ_iff.mp (by exact_mod_cast this))
    · exact .inr (by omega)
  have most := fits.exponent_lt small
  have low := fits.low
  have inside : (q + 1074).toNat * fieldUnit + r < infinityBits := by
    rw [infinityBits, show fieldUnit = 4503599627370496 from rfl]
    omega
  have number : ofRatio false num den = ofFields false ((q + 1074).toNat * fieldUnit + r) := by
    rw [ofRatio, if_neg num_pos.ne', bits, if_pos inside]
  have exponent : (((q + 1074).toNat : Int) - 1074) = q := by omega
  refine ⟨q, r, fits, near, ?_, ?_, ?_⟩
  · rw [number, value_ofFields atMost full inside, exponent]
  · rw [number]
    exact isFinite_ofFields inside
  · rw [number, magnitudeBits_ofFields inside, show fieldUnit = 4503599627370496 from rfl]
    omega

theorem value_zero : (zero false).value = 0 ∧ (zero false).isFinite = true ∧
    (zero false).magnitudeBits = 0 := by
  have inside : 0 * fieldUnit + 0 < infinityBits := by decide
  refine ⟨?_, by decide, by decide⟩
  exact (value_ofFields (by decide) (.inr rfl) inside).trans (by rw [Nat.cast_zero, zero_mul])

/-- A quotient in the range of the format is rounded to the nearest number. -/
theorem rounds_ofRatio (den_pos : 0 < den) (small : (num : ℚ) / den < 2 ^ 1023) :
    (ofRatio false num den).Rounds (num / den) := by
  rcases Nat.eq_zero_or_pos num with rfl | num_pos
  · obtain ⟨value, finite, bits⟩ := value_zero
    have none : ofRatio false 0 den = zero false := rfl
    rw [none]
    refine ⟨finite, fun y _ => ?_, fun _ _ _ _ => by rw [bits]⟩
    rw [value, Nat.cast_zero, zero_div, sub_zero, abs_zero]
    exact abs_nonneg _
  · obtain ⟨q, r, fits, near, value, finite, bits⟩ := exists_ofRatio num_pos den_pos small
    refine ⟨finite, fun y finite => ?_, fun y finite other same => ?_⟩
    · rw [value]
      exact (fits.le near finite).1
    · rw [value] at other same
      rw [bits]
      exact near.even ((fits.le near finite).2 other same)

/-- A whole quotient of at most 53 bits is a number, and is not changed. -/
theorem value_ofRatio_of_whole {n : Nat} (den_pos : 0 < den) (small : n < 2 ^ 53) :
    (ofRatio false (n * den) den).value = n := by
  have den_pos' : (0 : ℚ) < den := by exact_mod_cast den_pos
  have quotient : ((n * den : Nat) : ℚ) / den = n := by
    push_cast
    field_simp
  have small' : (n : ℚ) < 2 ^ 53 := by exact_mod_cast small
  rcases Nat.eq_zero_or_pos n with rfl | pos
  · rw [Nat.zero_mul, Nat.cast_zero]
    exact value_zero.1
  · have inside : ((n * den : Nat) : ℚ) / den < 2 ^ 1023 := by
      rw [quotient]
      exact lt_trans small' (pow_lt_pow_right₀ (by norm_num) (by decide))
    obtain ⟨q, r, fits, near, value, -, -⟩ :=
      exists_ofRatio (Nat.mul_pos pos den_pos) den_pos inside
    rw [quotient] at fits near
    -- The exponent is not positive, so the quotient is a whole number of steps.
    have down : q ≤ 0 := by
      have := fits.exponent_lt small'
      omega
    obtain ⟨places, rfl⟩ : ∃ places : Nat, q = -places := ⟨(-q).toNat, by omega⟩
    have steps : (n : ℚ) / 2 ^ (-(places : Int)) = ((n * 2 ^ places : Nat) : ℚ) := by
      rw [zpow_neg, zpow_natCast, div_inv_eq_mul]
      push_cast
      rfl
    rw [steps] at near
    rw [value, near.eq, ← steps]
    field_simp

end Ratio

end SheetFill.Binary64
