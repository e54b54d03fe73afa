import ToolLayer.Python.Value
import ToolLayer.Python.Exceptions

/-! `json.dumps(…, ensure_ascii=False)` and the decimal text of an `int`. -/
namespace Python

namespace Decimal

/-- The digits of a natural number, without leading zeros. -/
def natural (n : Nat) : Str := (Nat.toDigits 10 n).map CodePoint.ofChar

def text (n : Int) : Str := if n < 0 then CodePoint.ofChar '-' :: natural n.natAbs else natural n.natAbs

/-- `sys.get_int_max_str_digits()`: longer conversions raise in both directions. -/
def maxDigits : Nat := 4300

def printable (n : Int) : Bool := decide (n.natAbs < 10 ^ maxDigits)

/-- `str(n)`. -/
def str {E : Type} (n : Int) : Except (Exc E) Str :=
  if printable n then .ok (text n) else .error .valueError

theorem natural_injective : Function.Injective natural := by
  intro m n equal
  have digits := List.map_injective_iff.mpr CodePoint.ofChar_injective equal
  have value := congrArg (fun ds => Nat.ofDigitChars 10 ds 0) digits
  simpa only [Nat.ofDigitChars_ten_toDigits] using value

theorem natural_ne_nil (n : Nat) : natural n ≠ [] := by
  simp [natural,Nat.toDigits_ne_nil]

theorem isDigit_of_mem_natural {c : CodePoint} {n : Nat} (member : c ∈ natural n) : c.isDigit = true := by
  obtain ⟨d,digit,rfl⟩ := List.mem_map.mp member
  have range := Nat.isDigit_of_mem_toDigits (by omega) (by omega) digit
  simp only [Char.isDigit,Bool.and_eq_true,decide_eq_true_eq,UInt32.le_iff_toNat_le] at range
  rw [CodePoint.isDigit,CodePoint.between,Bool.and_eq_true]
  exact ⟨decide_eq_true range.1,decide_eq_true range.2⟩

theorem minus_not_mem_natural (n : Nat) : CodePoint.ofChar '-' ∉ natural n := by
  intro member
  exact absurd (isDigit_of_mem_natural member) (by decide)

theorem text_injective : Function.Injective text := by
  intro m n equal
  unfold text at equal
  split at equal
  next negative =>
    split at equal
    next other =>
      have same := natural_injective (List.cons.inj equal).2
      omega
    next other =>
      exact absurd (by simp [← equal]) (minus_not_mem_natural n.natAbs)
  next natural =>
    split at equal
    next other => exact absurd (by simp [equal]) (minus_not_mem_natural m.natAbs)
    next other =>
      have same := natural_injective equal
      omega

end Decimal

namespace Json

def hexDigit (n : Nat) : CodePoint := if n < 10 then Fin.ofNat _ (0x30 + n) else Fin.ofNat _ (0x57 + n)

/-- The body of a string literal, one code point at a time. -/
def escapePoint (c : CodePoint) : Str :=
  if c = '"' then Str.lit "\\\""
  else if c = '\\' then Str.lit "\\\\"
  else if c = '\n' then Str.lit "\\n"
  else if c = '\r' then Str.lit "\\r"
  else if c = '\t' then Str.lit "\\t"
  else if c.val = 0x08 then Str.lit "\\b"
  else if c.val = 0x0C then Str.lit "\\f"
  else if c.val < 0x20 then Str.lit "\\u00" ++ [hexDigit (c.val / 16),hexDigit (c.val % 16)]
  else [c]

def quoted (s : Str) : Str := CodePoint.ofChar '"' :: (s.flatMap escapePoint ++ [CodePoint.ofChar '"'])

/-- The keyword arguments of `json.dumps` that the code sets. -/
structure Options where
  itemSeparator : Str
  keySeparator : Str
  allowNan : Bool

/-- `json.dumps` without `separators`. -/
def Options.default : Options := ⟨", ",": ",true⟩

def Options.compact : Options := ⟨",",":",true⟩

def floatText (x : PyFloat) : Str :=
  if x.repr = "nan" then "NaN"
  else if x.repr = "inf" then "Infinity"
  else if x.repr = "-inf" then "-Infinity"
  else x.repr

mutual
def render (o : Options) : Value → Str
  | .null => "null"
  | .bool b => if b then "true" else "false"
  | .int n => Decimal.text n
  | .float x => floatText x
  | .str s => quoted s
  | .list items => CodePoint.ofChar '[' :: (Str.join o.itemSeparator (renderList o items) ++ [CodePoint.ofChar ']'])
  | .dict members =>
    CodePoint.ofChar '{' :: (Str.join o.itemSeparator (renderMembers o members) ++ [CodePoint.ofChar '}'])
  | .other _ _ _ => []
def renderList (o : Options) : List Value → List Str
  | [] => []
  | item::rest => render o item :: renderList o rest
def renderMembers (o : Options) : Dict → List Str
  | [] => []
  | (key,value)::rest => (quoted key ++ o.keySeparator ++ render o value) :: renderMembers o rest
end

mutual
/-- The first value, in writing order, that cannot be written, and what is raised for it. -/
def unwritable {E : Type} (o : Options) : Value → Option (Exc E)
  | .null => none
  | .bool _ => none
  | .int n => if Decimal.printable n then none else some .valueError
  | .float x =>
    match x.number with
    | .finite _ _ => none
    | _ => if o.allowNan then none else some .valueError
  | .str _ => none
  | .list items => unwritableList o items
  | .dict members => unwritableMembers o members
  | .other _ _ _ => some .typeError
def unwritableList {E : Type} (o : Options) : List Value → Option (Exc E)
  | [] => none
  | item::rest => (unwritable o item).or (unwritableList o rest)
def unwritableMembers {E : Type} (o : Options) : Dict → Option (Exc E)
  | [] => none
  | (_,value)::rest => (unwritable o value).or (unwritableMembers o rest)
end

/-- `json.dumps(v, ensure_ascii=False, …)`; `sort_keys` is applied by the caller. -/
def dumps {E : Type} (o : Options) (v : Value) : Except (Exc E) Str :=
  match unwritable o v with
  | some e => .error e
  | none => .ok (render o v)

end Json

end Python
