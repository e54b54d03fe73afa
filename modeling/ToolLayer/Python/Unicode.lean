import ToolLayer.Python.Text
import ToolLayer.Python.Json

/-! The character database of the interpreter, which the code reads through
`str.lower`, `\d`, `repr` and URL normalisation. Its ASCII part is fixed; the
rest depends on the Unicode version and stays a parameter. -/
namespace Python

class Unicode where
  lower : Str → Str
  digit : CodePoint → Option Nat
  printable : CodePoint → Bool
  nfkc : Str → Str
  lower_ascii : ∀ s : Str, s.all CodePoint.isAscii = true → lower s = s.map CodePoint.asciiLower
  digit_ascii : ∀ c : CodePoint, c.isAscii = true → digit c = if c.isDigit then some (c.val - 0x30) else none
  printable_ascii : ∀ c : CodePoint, c.isAscii = true → printable c = c.between 0x20 0x7E
  nfkc_ascii : ∀ s : Str, s.all CodePoint.isAscii = true → nfkc s = s
  /-- Letters aside, lowering writes no ASCII that was not there. -/
  lower_mark : ∀ (s : Str) (c : CodePoint), c ∈ lower s → c.isAscii = true → c.isAlnum = false → c ∈ s

namespace Unicode

/-- The database with nothing recorded beyond ASCII. -/
@[reducible] def asciiOnly : Unicode where
  lower := List.map CodePoint.asciiLower
  digit c := if c.isDigit then some (c.val - 0x30) else none
  printable c := c.between 0x20 0x7E
  nfkc s := s
  lower_ascii _ _ := rfl
  digit_ascii _ _ := rfl
  printable_ascii _ _ := rfl
  nfkc_ascii _ _ := rfl
  lower_mark s c member _ other := by
    obtain ⟨d,inside,rfl⟩ := List.mem_map.mp member
    rwa [← CodePoint.eq_of_asciiLower rfl other]

/-- `\d`. -/
def decimal [Unicode] (c : CodePoint) : Bool := (digit c).isSome

end Unicode

namespace Str

variable [Unicode]

def hex (width : Nat) (n : Nat) : Str :=
  (List.range width).map (fun i => Json.hexDigit (n / 16 ^ (width - 1 - i) % 16))

def reprPoint (quote c : CodePoint) : Str :=
  if c = quote ∨ c = '\\' then [CodePoint.ofChar '\\',c]
  else if c = '\t' then Str.lit "\\t"
  else if c = '\n' then Str.lit "\\n"
  else if c = '\r' then Str.lit "\\r"
  else if Unicode.printable c then [c]
  else if c.val < 0x100 then Str.lit "\\x" ++ hex 2 c.val
  else if c.val < 0x10000 then Str.lit "\\u" ++ hex 4 c.val
  else Str.lit "\\U" ++ hex 8 c.val

/-- `repr(s)`, what `!r` writes into a message. -/
def repr (s : Str) : Str :=
  let single : CodePoint := Fin.ofNat _ 0x27
  let double : CodePoint := Fin.ofNat _ 0x22
  let quote := if decide (single ∈ s) && decide (double ∉ s) then double else single
  quote :: (s.flatMap (reprPoint quote) ++ [quote])

/-- Digits with single underscores between them; `after` is whether a digit came last. -/
def groupedDigits (after : Bool) : Str → Option (List Nat)
  | [] => if after then some [] else none
  | c::rest =>
    match Unicode.digit c with
    | some d => (groupedDigits true rest).map (d :: ·)
    | none => if after && c == '_' then groupedDigits false rest else none

/-- `int(s)`; `none` is `ValueError`. -/
def int? (s : Str) : Option Int :=
  let body := s.strip
  let (negative,digits) := match body with
    | c::rest => if c = '-' then (true,rest) else if c = '+' then (false,rest) else (false,body)
    | [] => (false,[])
  match groupedDigits false digits with
  | some (d::ds) =>
    if (d::ds).length ≤ Decimal.maxDigits then
      let n : Int := ((d::ds).foldl (fun n d => 10 * n + d) 0 : Nat)
      some (if negative then -n else n)
    else none
  | _ => none

end Str

namespace Value

variable [Unicode] {E : Type}

def bracketed (opening closing : Char) (pieces : List Str) : Str :=
  CodePoint.ofChar opening :: (Str.join ", " pieces ++ [CodePoint.ofChar closing])

mutual
/-- `repr(v)`; an integer too long to write raises. -/
def repr : Value → Except (Exc E) Str
  | .null => .ok "None"
  | .bool b => .ok (if b then "True" else "False")
  | .int n => Decimal.str n
  | .float x => .ok x.repr
  | .str s => .ok s.repr
  | .list items => do
    let pieces ← reprList items
    return bracketed '[' ']' pieces
  | .dict members => do
    let pieces ← reprMembers members
    return bracketed (Char.ofNat 0x7B) (Char.ofNat 0x7D) pieces
  | .other _ text _ => .ok text
def reprList : List Value → Except (Exc E) (List Str)
  | [] => .ok []
  | item::rest => do
    let first ← repr item
    let pieces ← reprList rest
    return first :: pieces
def reprMembers : Dict → Except (Exc E) (List Str)
  | [] => .ok []
  | (key,value)::rest => do
    let first ← repr value
    let pieces ← reprMembers rest
    return (key.repr ++ Str.lit ": " ++ first) :: pieces
end

end Value

end Python
