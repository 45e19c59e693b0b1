import Mathlib.Data.Int.Log
import Mathlib.Data.Rat.Floor
import Mathlib.Tactic.Linarith
import Mathlib.Tactic.Positivity
import Mathlib.Tactic.FieldSimp

/-! Double-precision numbers as rational numbers, and the nearest one to a given number.  A number
is rounded to an integer multiple of the unit of its last digit; the other doubles near it are
multiples of the same unit, or they lie beyond the power of two next to it. -/

namespace Float64

/-- The finite double-precision numbers have at most 53 binary digits. -/
def IsDouble (q : ℚ) : Prop :=
  ∃ m e : ℤ, |m| < 2 ^ 53 ∧ -1074 ≤ e ∧ e ≤ 971 ∧ q = m * 2 ^ e

/-- A finite double-precision number.  The two zeros are one, as they are for a comparison. -/
@[ext] structure Double where
  value : ℚ
  isDouble : IsDouble value

instance : DecidableEq Double := fun x y => decidable_of_iff (x.value = y.value) Double.ext_iff.symm

/-! ### Integers -/

/-- The nearest integer, the even one of two. -/
def roundEven (x : ℚ) : ℤ :=
  if 2 * (x - ⌊x⌋) < 1 then ⌊x⌋
  else if 1 < 2 * (x - ⌊x⌋) then ⌊x⌋ + 1
  else if ⌊x⌋ % 2 = 0 then ⌊x⌋
  else ⌊x⌋ + 1

theorem abs_roundEven_sub_le (x : ℚ) : |(roundEven x : ℚ) - x| ≤ 1 / 2 := by
  have hle := Int.floor_le x
  have hlt := Int.lt_floor_add_one x
  unfold roundEven
  split_ifs <;> push_cast <;> rw [abs_le] <;> constructor <;> linarith

/-- No integer is nearer: another one is at least at the distance one from the rounded one. -/
theorem roundEven_nearest (x : ℚ) (k : ℤ) : |(roundEven x : ℚ) - x| ≤ |(k : ℚ) - x| := by
  have hhalf := abs_roundEven_sub_le x
  by_cases hk : k = roundEven x
  · rw [hk]
  · have hone : (1 : ℚ) ≤ |(k : ℚ) - roundEven x| := by
      exact_mod_cast Int.one_le_abs (sub_ne_zero.mpr hk)
    have htriangle := abs_sub_le (k : ℚ) x (roundEven x)
    rw [abs_sub_comm x] at htriangle
    linarith

theorem le_roundEven {x : ℚ} {k : ℤ} (h : (k : ℚ) ≤ x) : k ≤ roundEven x := by
  have hfloor : k ≤ ⌊x⌋ := Int.le_floor.mpr h
  unfold roundEven
  split_ifs <;> omega

theorem roundEven_le {x : ℚ} {k : ℤ} (h : x ≤ k) : roundEven x ≤ k := by
  rcases h.lt_or_eq with hlt | rfl
  · have hfloor : ⌊x⌋ < k := Int.floor_lt.mpr hlt
    unfold roundEven
    split_ifs <;> omega
  · simp [roundEven]

/-! ### Doubles -/

/-- The exponent of the last digit that a double near `q` has. -/
def exponent (q : ℚ) : ℤ := max (Int.log 2 |q| - 52) (-1074)

/-- The number rounded to its last digit. -/
def rounded (q : ℚ) : ℚ := roundEven (q / 2 ^ exponent q) * 2 ^ exponent q

theorem two_zpow_pos (e : ℤ) : (0 : ℚ) < 2 ^ e := zpow_pos (by norm_num) e

theorem abs_lt_zpow (q : ℚ) : |q| < 2 ^ (exponent q + 53) := by
  have hlog := Int.lt_zpow_succ_log_self (b := 2) (by norm_num) |q|
  have hle : Int.log 2 |q| + 1 ≤ exponent q + 53 := by
    have := le_max_left (Int.log 2 |q| - 52) (-1074)
    unfold exponent
    omega
  exact lt_of_lt_of_le (by exact_mod_cast hlog) (zpow_le_zpow_right₀ (by norm_num) hle)

theorem zpow_le_abs {q : ℚ} (hq : q ≠ 0) (h : -1074 < exponent q) :
    2 ^ (exponent q + 52) ≤ |q| := by
  have hlog := Int.zpow_log_le_self (b := 2) (by norm_num) (abs_pos.mpr hq)
  have heq : exponent q + 52 = Int.log 2 |q| := by
    have hmax : exponent q = Int.log 2 |q| - 52 ∨ exponent q = -1074 := max_choice _ _
    omega
  rw [heq]
  exact_mod_cast hlog

theorem rounded_nearest_multiple (q : ℚ) (k : ℤ) :
    |rounded q - q| ≤ |k * 2 ^ exponent q - q| := by
  have hpos := two_zpow_pos (exponent q)
  have hscale : ∀ n : ℤ, |(n : ℚ) * 2 ^ exponent q - q| =
      |(n : ℚ) - q / 2 ^ exponent q| * 2 ^ exponent q := by
    intro n
    rw [← abs_of_pos hpos, ← abs_mul, abs_of_pos hpos, sub_mul, div_mul_cancel₀ q hpos.ne']
  rw [rounded, hscale, hscale]
  exact mul_le_mul_of_nonneg_right (roundEven_nearest _ k) hpos.le

/-- No double is nearer.  One that is no multiple of the unit has a smaller exponent, so it lies on
the other side of the power of two below the absolute value of `q`. -/
theorem rounded_nearest {q y : ℚ} (hy : IsDouble y) : |rounded q - q| ≤ |y - q| := by
  obtain ⟨m, e, hm, he, -, rfl⟩ := hy
  by_cases hle : exponent q ≤ e
  · obtain ⟨d, hd⟩ := Int.le.dest hle
    have heq : ((m * 2 ^ d : ℤ) : ℚ) * 2 ^ exponent q = m * 2 ^ e := by
      rw [← hd, zpow_add₀ (by norm_num), zpow_natCast]
      push_cast
      ring
    have hk := rounded_nearest_multiple q (m * 2 ^ d)
    rwa [heq] at hk
  by_cases hq : q = 0
  · have hzero : |rounded q - q| = 0 := by simp [hq, rounded, roundEven]
    rw [hzero]
    exact abs_nonneg _
  have hlow := zpow_le_abs hq (by omega)
  have hy : |(m : ℚ) * 2 ^ e| < 2 ^ (exponent q + 52) := by
    have hm' : |(m : ℚ)| < 2 ^ 53 := by exact_mod_cast hm
    calc |(m : ℚ) * 2 ^ e| = |(m : ℚ)| * 2 ^ e := by rw [abs_mul, abs_of_pos (two_zpow_pos e)]
      _ < 2 ^ 53 * 2 ^ e := mul_lt_mul_of_pos_right hm' (two_zpow_pos e)
      _ = 2 ^ (53 + e) := by rw [zpow_add₀ (by norm_num)]; norm_cast
      _ ≤ 2 ^ (exponent q + 52) := zpow_le_zpow_right₀ (by norm_num) (by omega)
  have hunit : ((2 ^ 52 : ℤ) : ℚ) * 2 ^ exponent q = 2 ^ (exponent q + 52) := by
    rw [zpow_add₀ (by norm_num), mul_comm]
    norm_cast
  have hdistance := abs_sub_abs_le_abs_sub q ((m : ℚ) * 2 ^ e)
  rw [abs_sub_comm q] at hdistance
  rcases lt_or_gt_of_ne hq with hneg | hpos
  · have hk := rounded_nearest_multiple q (-2 ^ 52)
    rw [abs_of_neg hneg] at hlow hdistance
    have heq : |((-2 ^ 52 : ℤ) : ℚ) * 2 ^ exponent q - q| = -q - 2 ^ (exponent q + 52) := by
      rw [Int.cast_neg, neg_mul, hunit, abs_of_nonneg (by linarith)]
      ring
    linarith
  · have hk := rounded_nearest_multiple q (2 ^ 52)
    rw [abs_of_pos hpos] at hlow hdistance
    have heq : |((2 ^ 52 : ℤ) : ℚ) * 2 ^ exponent q - q| = q - 2 ^ (exponent q + 52) := by
      rw [hunit, abs_of_nonpos (by linarith)]
      ring
    linarith

theorem rounded_eq_self {q : ℚ} (h : IsDouble q) : rounded q = q := by
  have hle := rounded_nearest (q := q) h
  rw [sub_self, abs_zero] at hle
  exact sub_eq_zero.mp (abs_nonpos_iff.mp hle)

theorem abs_roundEven_le (q : ℚ) : |roundEven (q / 2 ^ exponent q)| ≤ 2 ^ 53 := by
  have hpos := two_zpow_pos (exponent q)
  have hscaled : |q / 2 ^ exponent q| ≤ ((2 ^ 53 : ℤ) : ℚ) := by
    rw [abs_div, abs_of_pos hpos, div_le_iff₀ hpos]
    refine (abs_lt_zpow q).le.trans_eq ?_
    rw [zpow_add₀ (by norm_num), mul_comm]
    norm_cast
  obtain ⟨hlow, hhigh⟩ := abs_le.mp hscaled
  exact abs_le.mpr ⟨le_roundEven (by rw [Int.cast_neg]; exact hlow), roundEven_le hhigh⟩

/-- A number that is rounded to an integer below `2 ^ 52` has the least exponent. -/
theorem le_abs_roundEven {q : ℚ} (hq : q ≠ 0) (h : -1074 < exponent q) :
    2 ^ 52 ≤ |roundEven (q / 2 ^ exponent q)| := by
  have hpos := two_zpow_pos (exponent q)
  have hscaled : ((2 ^ 52 : ℤ) : ℚ) ≤ |q / 2 ^ exponent q| := by
    rw [abs_div, abs_of_pos hpos, le_div_iff₀ hpos]
    refine Eq.trans_le ?_ (zpow_le_abs hq h)
    rw [zpow_add₀ (by norm_num), mul_comm]
    norm_cast
  rcases le_abs'.mp hscaled with hneg | hle
  · exact le_abs'.mpr (.inl (roundEven_le (by rw [Int.cast_neg]; exact hneg)))
  · exact le_abs'.mpr (.inr (le_roundEven hle))

theorem isDouble_rounded {q : ℚ} (h : |rounded q| < 2 ^ (1024 : ℤ)) : IsDouble (rounded q) := by
  have hpos := two_zpow_pos (exponent q)
  have hmin : -1074 ≤ exponent q := le_max_right _ _
  have habs : |rounded q| = (|roundEven (q / 2 ^ exponent q)| : ℤ) * 2 ^ exponent q := by
    rw [rounded, abs_mul, abs_of_pos hpos, Int.cast_abs]
  -- a significand of `n` digits bounds the exponent
  have hexponent : ∀ n : ℕ, 2 ^ n ≤ |roundEven (q / 2 ^ exponent q)| → n + exponent q < 1024 := by
    intro n hn
    have hle : (2 : ℚ) ^ (n + exponent q) ≤ |rounded q| := by
      rw [habs, zpow_add₀ (by norm_num), zpow_natCast]
      refine mul_le_mul_of_nonneg_right ?_ hpos.le
      exact_mod_cast hn
    exact (zpow_lt_zpow_iff_right₀ (by norm_num)).mp (hle.trans_lt h)
  by_cases hq : q = 0
  · exact ⟨0, 0, by norm_num, by norm_num, by norm_num, by simp [hq, rounded, roundEven]⟩
  rcases (abs_roundEven_le q).lt_or_eq with hlt | heq
  · refine ⟨_, exponent q, hlt, hmin, ?_, rfl⟩
    by_contra hbig
    have := hexponent 52 (le_abs_roundEven hq (by omega))
    omega
  · -- `2 ^ 53` units are `2 ^ 52` units of the next exponent
    have hnext := hexponent 53 heq.ge
    have hdouble : ∀ s : ℤ, ((s * 2 ^ 53 : ℤ) : ℚ) * 2 ^ exponent q =
        (s * 2 ^ 52 : ℤ) * 2 ^ (exponent q + 1) := by
      intro s
      rw [zpow_add₀ (by norm_num)]
      push_cast
      ring
    rcases (abs_eq (by norm_num)).mp heq with hm | hm
    · refine ⟨1 * 2 ^ 52, exponent q + 1, by norm_num, by omega, by omega, ?_⟩
      rw [← hdouble, rounded, hm, one_mul]
    · refine ⟨-1 * 2 ^ 52, exponent q + 1, by norm_num, by omega, by omega, ?_⟩
      rw [← hdouble, rounded, hm, neg_one_mul]

/-- The nearest double, `none` if the number is out of range. -/
def nearest (q : ℚ) : Option Double :=
  if h : |rounded q| < 2 ^ (1024 : ℤ) then some ⟨rounded q, isDouble_rounded h⟩ else none

theorem abs_lt_of_isDouble {q : ℚ} (h : IsDouble q) : |q| < 2 ^ (1024 : ℤ) := by
  obtain ⟨m, e, hm, -, he, rfl⟩ := h
  have hm' : |(m : ℚ)| < 2 ^ (53 : ℤ) := by exact_mod_cast hm
  calc |(m : ℚ) * 2 ^ e| = |(m : ℚ)| * 2 ^ e := by rw [abs_mul, abs_of_pos (two_zpow_pos e)]
    _ < 2 ^ (53 : ℤ) * 2 ^ e := mul_lt_mul_of_pos_right hm' (two_zpow_pos e)
    _ = 2 ^ (53 + e) := (zpow_add₀ (by norm_num) _ _).symm
    _ ≤ 2 ^ (1024 : ℤ) := zpow_le_zpow_right₀ (by norm_num) (by omega)

@[simp] theorem nearest_value (x : Double) : nearest x.value = some x := by
  have hself := rounded_eq_self x.isDouble
  rw [nearest, dif_pos (by rw [hself]; exact abs_lt_of_isDouble x.isDouble)]
  exact congrArg some (Double.ext hself)

end Float64
