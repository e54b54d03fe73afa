import ToolLayer.Python.Json

/-! UTC times in whole seconds and their text. -/
namespace Python

def daysIn (year : Nat) : Nat → Nat
  | 2 => if year % 4 = 0 ∧ (year % 100 ≠ 0 ∨ year % 400 = 0) then 29 else 28
  | 4 | 6 | 9 | 11 => 30
  | _ => 31

/-- A `datetime` of the proleptic calendar, truncated as `utc_now` does. -/
structure Timestamp where
  year : Nat
  month : Nat
  day : Nat
  hour : Nat
  minute : Nat
  second : Nat
  date : 1 ≤ year ∧ year ≤ 9999 ∧ 1 ≤ month ∧ month ≤ 12 ∧ 1 ≤ day ∧ day ≤ daysIn year month
  time : hour < 24 ∧ minute < 60 ∧ second < 60
  deriving DecidableEq

def padded (width n : Nat) : Str :=
  let digits := Decimal.natural n
  List.replicate (width - digits.length) (CodePoint.ofChar '0') ++ digits

/-- `isoformat()` with `Z` for the offset. -/
def Timestamp.rfc3339 (t : Timestamp) : Str :=
  padded 4 t.year ++ Str.lit "-" ++ padded 2 t.month ++ Str.lit "-" ++ padded 2 t.day ++ Str.lit "T" ++
    padded 2 t.hour ++ Str.lit ":" ++ padded 2 t.minute ++ Str.lit ":" ++ padded 2 t.second ++ Str.lit "Z"

theorem isAscii_padded {width n : Nat} : ∀ c ∈ padded width n, c.isAscii = true := by
  intro c member
  rcases List.mem_append.mp member with zero | digit
  · rw [List.eq_of_mem_replicate zero]
    decide
  · have small := Decimal.isDigit_of_mem_natural digit
    simp only [CodePoint.isDigit,CodePoint.between,Bool.and_eq_true,decide_eq_true_eq] at small
    simp only [CodePoint.isAscii,decide_eq_true_eq]
    omega

theorem Str.scalar_of_ascii {s : Str} (ascii : ∀ c ∈ s, c.isAscii = true) : s.scalar = true := by
  rw [Str.scalar,List.all_eq_true]
  intro c member
  have small := ascii c member
  simp only [CodePoint.isAscii,decide_eq_true_eq] at small
  simp only [CodePoint.isSurrogate,CodePoint.between,Bool.not_eq_true',Bool.and_eq_false_iff,decide_eq_false_iff_not]
  omega

theorem Timestamp.scalar_rfc3339 (t : Timestamp) : t.rfc3339.scalar = true := by
  apply Str.scalar_of_ascii
  intro c member
  simp only [Timestamp.rfc3339,List.mem_append] at member
  have dash : (Str.lit "-").all CodePoint.isAscii = true := by decide
  have separator : (Str.lit "T").all CodePoint.isAscii = true := by decide
  have colon : (Str.lit ":").all CodePoint.isAscii = true := by decide
  have zone : (Str.lit "Z").all CodePoint.isAscii = true := by decide
  rcases member with (((((((((((h | h) | h) | h) | h) | h) | h) | h) | h) | h) | h) | h)
  all_goals first
    | exact isAscii_padded c h
    | exact List.all_eq_true.mp dash c h
    | exact List.all_eq_true.mp separator c h
    | exact List.all_eq_true.mp colon c h
    | exact List.all_eq_true.mp zone c h

end Python
