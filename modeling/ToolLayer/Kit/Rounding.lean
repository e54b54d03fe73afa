import Mathlib.Data.Int.Log
import Mathlib.Data.Rat.Floor
import Mathlib.Tactic.FieldSimp
import Mathlib.Tactic.Linarith
import Mathlib.Tactic.Positivity

/-! Rounding of rationals to a binary format: to nearest, ties to even. -/
namespace Kit.Rounding

/-- The digits of a mantissa after its first, and the least exponent of a last digit. -/
structure Format where
  digits : Nat
  least : Int

/-- To the nearest integer, and to the even one of two. -/
def halfEven (q : ℚ) : ℤ :=
  if Int.fract q < 1 / 2 then ⌊q⌋
  else if 1 / 2 < Int.fract q then ⌊q⌋ + 1
  else if ⌊q⌋ % 2 = 0 then ⌊q⌋ else ⌊q⌋ + 1

theorem floor_le_halfEven (q : ℚ) : ⌊q⌋ ≤ halfEven q := by
  unfold halfEven
  split_ifs <;> omega

theorem halfEven_le (q : ℚ) : halfEven q ≤ ⌊q⌋ + 1 := by
  unfold halfEven
  split_ifs <;> omega

theorem halfEven_int (n : ℤ) : halfEven n = n := by
  simp [halfEven]

variable (f : Format)

def exponent (q : ℚ) : ℤ := max (Int.log 2 |q| - f.digits) f.least

/-- How far apart the numbers of the format stand at the magnitude of `q`. -/
def spacing (q : ℚ) : ℚ := 2 ^ exponent f q

def rounded (q : ℚ) : ℚ := halfEven (q / spacing f q) * spacing f q

variable {f}

theorem spacing_pos (q : ℚ) : 0 < spacing f q := zpow_pos (by norm_num) _

theorem rounded_zero : rounded f 0 = 0 := by
  rw [rounded,zero_div,← Int.cast_zero,halfEven_int,Int.cast_zero,zero_mul]

/-- A multiple of the spacing is a number of the format. -/
theorem rounded_of_multiple {q : ℚ} {n : ℤ} (multiple : q = n * spacing f q) : rounded f q = q := by
  have whole : q / spacing f q = n := by
    rw [div_eq_iff (spacing_pos q).ne']
    exact multiple
  rw [rounded,whole,halfEven_int]
  exact multiple.symm

theorem rounded_le (q : ℚ) : rounded f q ≤ q + spacing f q := by
  have positive := spacing_pos (f := f) q
  have above : (halfEven (q / spacing f q) : ℚ) ≤ ⌊q / spacing f q⌋ + 1 := by exact_mod_cast halfEven_le _
  have below := Int.floor_le (q / spacing f q)
  calc rounded f q ≤ (q / spacing f q + 1) * spacing f q :=
        mul_le_mul_of_nonneg_right (above.trans (by linarith)) positive.le
    _ = q + spacing f q := by field_simp

/-- A grid point at most `q` is at most what `q` is rounded to. -/
theorem grid_le_rounded {q : ℚ} {n : ℤ} (below : n * spacing f q ≤ q) : n * spacing f q ≤ rounded f q := by
  have positive := spacing_pos (f := f) q
  have quotient : (n : ℚ) ≤ q / spacing f q := (le_div_iff₀ positive).mpr below
  have first : n ≤ ⌊q / spacing f q⌋ := Int.le_floor.mpr quotient
  have second : (n : ℚ) ≤ halfEven (q / spacing f q) := by exact_mod_cast first.trans (floor_le_halfEven _)
  exact mul_le_mul_of_nonneg_right second positive.le

theorem lt_of_exponent {d q : ℚ} (finer : exponent f d < exponent f q) :
    |d| < 2 ^ (Int.log 2 |q|) ∧ exponent f q = Int.log 2 |q| - f.digits := by
  have coarse : exponent f q = Int.log 2 |q| - f.digits := by
    unfold exponent at finer ⊢
    omega
  refine ⟨?_,coarse⟩
  have logs : Int.log 2 |d| + 1 ≤ Int.log 2 |q| := by
    unfold exponent at finer
    omega
  have upper := Int.lt_zpow_succ_log_self (b := 2) (by omega) |d|
  exact upper.trans_le (zpow_le_zpow_right₀ (by norm_num) logs)

/-- Rounding crosses no number of the format. -/
theorem le_rounded {d q : ℚ} (member : rounded f d = d) (below : d ≤ q) : d ≤ rounded f q := by
  rcases eq_or_ne q 0 with rfl | nonzero
  · rwa [rounded_zero]
  rcases lt_or_ge (exponent f d) (exponent f q) with finer | coarser
  · -- the power of two that starts the binade of `q` lies between
    obtain ⟨small,shape⟩ := lt_of_exponent finer
    have start : (2 : ℚ) ^ Int.log 2 |q| ≤ |q| := by
      exact_mod_cast Int.zpow_log_le_self (b := 2) (by omega) (abs_pos.mpr nonzero)
    have positive : 0 < q := by
      by_contra negative
      have both : |q| ≤ |d| := abs_le_abs_of_nonpos (not_lt.mp negative) below
      linarith
    have point : (((2 ^ f.digits : ℕ) : ℤ) : ℚ) * spacing f q = 2 ^ Int.log 2 |q| := by
      rw [spacing,shape,zpow_sub₀ (by norm_num),zpow_natCast]
      push_cast
      field_simp
    rw [abs_of_pos positive] at start small point
    have reached := grid_le_rounded (f := f) (q := q) (n := ((2 ^ f.digits : ℕ) : ℤ)) (point.trans_le start)
    calc d ≤ |d| := le_abs_self d
      _ ≤ 2 ^ Int.log 2 q := small.le
      _ ≤ rounded f q := point ▸ reached
  · -- the grid at `d` is part of the grid at `q`
    have finer : spacing f d = (((2 ^ (exponent f d - exponent f q).toNat : ℕ) : ℤ) : ℚ) * spacing f q := by
      rw [spacing,spacing]
      push_cast
      rw [← zpow_natCast,Int.toNat_of_nonneg (by omega),← zpow_add₀ (by norm_num),Int.sub_add_cancel]
    have multiple : d = ((halfEven (d / spacing f d) * ((2 ^ (exponent f d - exponent f q).toNat : ℕ) : ℤ) : ℤ) : ℚ) *
        spacing f q := by
      rw [Int.cast_mul,mul_assoc,← finer]
      exact member.symm
    rw [multiple] at below ⊢
    exact grid_le_rounded below

/-- Integers of at most as many digits as a mantissa has belong to the format. -/
theorem rounded_int {n : ℤ} (least : f.least ≤ 0) (short : |n| < 2 ^ (f.digits + 1)) : rounded f n = n := by
  rcases eq_or_ne n 0 with rfl | nonzero
  · rw [Int.cast_zero,rounded_zero]
  have logs : Int.log 2 |(n : ℚ)| ≤ f.digits := by
    have positive : 0 < |(n : ℚ)| := abs_pos.mpr (by exact_mod_cast nonzero)
    have bound : |(n : ℚ)| < ((2 : ℕ) : ℚ) ^ ((f.digits : ℤ) + 1) := by
      exact_mod_cast short
    have := (Int.lt_zpow_iff_log_lt (by omega) positive).mp bound
    omega
  have down : exponent f n ≤ 0 := by
    unfold exponent
    omega
  have inverse : (((2 ^ (-exponent f n).toNat : ℕ) : ℤ) : ℚ) * spacing f n = 1 := by
    rw [spacing]
    push_cast
    rw [← zpow_natCast,Int.toNat_of_nonneg (by omega),← zpow_add₀ (by norm_num),neg_add_cancel,zpow_zero]
  apply rounded_of_multiple (n := n * ((2 ^ (-exponent f n).toNat : ℕ) : ℤ))
  rw [Int.cast_mul,mul_assoc,inverse,mul_one]

end Kit.Rounding
