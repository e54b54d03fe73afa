import ToolLayer.Kit.Rounding
import ToolLayer.Python.Exceptions
import ToolLayer.Python.Value

/-! `float` arithmetic on the numbers doubles stand for. -/
namespace Python
open Kit.Rounding

def binary64 : Format := ⟨52,-1074⟩

inductive Double where
  | finite (q : ℚ)
  | infinite (negative : Bool)
  | nan
  deriving DecidableEq

namespace Double

def ofRat (q : ℚ) : Double :=
  if 2 ^ 1024 ≤ |rounded binary64 q| then .infinite (decide (q < 0)) else .finite (rounded binary64 q)

def ofNumber : Number → Double
  | .finite m e => ofRat (m * 10 ^ e)
  | .infinite negative => .infinite negative
  | .nan => .nan

/-- `float(n)` of an `int`. -/
def ofInt {E : Type} (n : Int) : Except (Exc E) Double :=
  match ofRat n with
  | .finite q => .ok (.finite q)
  | _ => .error .overflowError

def add : Double → Double → Double
  | finite a,finite b => ofRat (a + b)
  | infinite a,infinite b => if a = b then infinite a else nan
  | infinite a,finite _ => infinite a
  | finite _,infinite b => infinite b
  | _,_ => nan

def lt : Double → Double → Bool
  | finite a,finite b => decide (a < b)
  | infinite a,infinite b => a && !b
  | infinite a,finite _ => a
  | finite _,infinite b => !b
  | _,_ => false

def le (x y : Double) : Bool := lt x y || (decide (x = y) && decide (x ≠ nan))

/-- A number that is not NaN stands below another or does not. -/
theorem le_eq_not_lt {x y : Double} (left : x ≠ nan) (right : y ≠ nan) : le x y = !lt y x := by
  cases x with
  | finite a =>
    cases y with
    | finite b =>
      rcases lt_trichotomy a b with below | rfl | above
      · simp [le,lt,below,below.le]
      · simp [le,lt]
      · simp [le,lt,above,above.le,above.ne']
    | infinite b => cases b <;> simp [le,lt]
    | nan => exact absurd rfl right
  | infinite a =>
    cases y with
    | finite b => cases a <;> simp [le,lt]
    | infinite b => cases a <;> cases b <;> simp [le,lt]
    | nan => exact absurd rfl right
  | nan => exact absurd rfl left

/-- The value of `time.time()`, and whatever else a finite `float` holds. -/
def Held (q : ℚ) : Prop := rounded binary64 q = q

theorem held_int {n : Int} (small : |n| < 2 ^ 53) : Held n := rounded_int (by decide) small

/-- The error of a rounding is small beside what is rounded. -/
theorem spacing_le (q : ℚ) : spacing binary64 q ≤ |q| + 1 := by
  rw [spacing,exponent,(zpow_right_strictMono₀ (show (1 : ℚ) < 2 by norm_num)).monotone.map_max,max_le_iff]
  constructor
  · rcases eq_or_ne q 0 with rfl | nonzero
    · norm_num [binary64]
    have start : (2 : ℚ) ^ Int.log 2 |q| ≤ |q| := by
      exact_mod_cast Int.zpow_log_le_self (b := 2) (by omega) (abs_pos.mpr nonzero)
    have down : (2 : ℚ) ^ (Int.log 2 |q| - (binary64.digits : ℤ)) ≤ 2 ^ Int.log 2 |q| :=
      zpow_le_zpow_right₀ (by norm_num) (by simp [binary64])
    linarith
  · have tiny : (2 : ℚ) ^ (binary64.least) ≤ 2 ^ (0 : ℤ) := zpow_le_zpow_right₀ (by norm_num) (by decide)
    rw [zpow_zero] at tiny
    linarith [abs_nonneg q]

theorem ofRat_of_small {q : ℚ} (nonneg : 0 ≤ q) (small : q ≤ 2 ^ 60) : ofRat q = finite (rounded binary64 q) := by
  have below := le_rounded (f := binary64) rounded_zero nonneg
  have above := rounded_le (f := binary64) q
  have error_ := spacing_le q
  have room : (2 : ℚ) ^ 60 + (2 ^ 60 + 1) < 2 ^ 62 := by norm_num
  have far : (2 : ℚ) ^ 62 ≤ 2 ^ 1024 := pow_le_pow_right₀ (by norm_num) (by omega)
  rw [abs_of_nonneg nonneg] at error_
  rw [ofRat,if_neg]
  rw [abs_of_nonneg below,not_le]
  exact lt_of_lt_of_le (by linarith) far

end Double

def PyFloat.double (x : PyFloat) : Double := Double.ofNumber x.number

/-- `isinstance(v, (int, float)) and not isinstance(v, bool)`. -/
def Value.isNumber : Value → Bool
  | .int _ => true
  | .float _ => true
  | _ => false

/-- `float(v)` of such a value. -/
def Value.toFloat {E : Type} : Value → Except (Exc E) Double
  | .int n => Double.ofInt n
  | .float x => .ok x.double
  | _ => .error .typeError

end Python
