import ToolLayer.Python.Value

/-! Address literals as `ipaddress.ip_address` reads them. -/
namespace Python

inductive IpAddress where
  | v4 (n : Nat)
  | v6 (n : Nat)
  deriving DecidableEq

namespace Ip

/-- One decimal octet: ASCII digits, at most three, no leading zero, at most 255. -/
def octet? (s : Str) : Option Nat :=
  if Str.allDigits s && decide (s.length ≤ 3) && (s == Str.lit "0" || s.head? != some (CodePoint.ofChar '0')) then
    let n := Str.digitsValue s
    if n ≤ 255 then some n else none
  else none

def v4? (s : Str) : Option Nat :=
  match (Str.split s '.').map octet? with
  | [some a,some b,some c,some d] => some (((a * 256 + b) * 256 + c) * 256 + d)
  | _ => none

def hexValue? (c : CodePoint) : Option Nat :=
  if c.isDigit then some (c.val - 0x30)
  else if c.between 0x61 0x66 then some (c.val - 0x57)
  else if c.between 0x41 0x46 then some (c.val - 0x37)
  else none

def hexDigits? (s : Str) : Option Nat :=
  s.foldl (fun n c => match n,hexValue? c with | some n,some d => some (16 * n + d) | _,_ => none) (some 0)

def hextet? (s : Str) : Option Nat :=
  if s.isEmpty || decide (4 < s.length) then none else hexDigits? s

/-- The address part without a scope: an identifier after `%` is cut off. -/
def scoped? (s : Str) : Option Str :=
  let (address,found,scope) := Str.partition '%' s
  if found && (scope.isEmpty || decide (CodePoint.ofChar '%' ∈ scope)) then none else some address

/-- A dotted last part counts as two groups. -/
def groups? (parts : List Str) : Option (List (Option Nat)) :=
  match parts.reverse with
  | [] => none
  | last::front =>
    if decide (CodePoint.ofChar '.' ∈ last) then
      (v4? last).map (fun n => (front.reverse.map hextet?) ++ [some (n / 65536),some (n % 65536)])
    else some (parts.map hextet?)

def allSome (groups : List (Option Nat)) : Option (List Nat) := groups.mapM id

def groupsValue (groups : List Nat) : Nat := groups.foldl (fun n g => n * 65536 + g) 0

/-- Positions of the empty inner parts. -/
def innerGaps (parts : List Str) : List Nat :=
  (parts.zipIdx.filter (fun p => p.1.isEmpty && decide (0 < p.2) && decide (p.2 + 1 < parts.length))).map Prod.snd

def v6? (s : Str) : Option Nat := do
  let address ← scoped? s
  if decide (CodePoint.ofChar '/' ∈ address) then none
  let parts := Str.split address ':'
  if decide (parts.length < 3) then none
  let groups ← groups? parts
  if decide (9 < groups.length) then none
  match innerGaps parts with
  | [] => do
    let values ← allSome groups
    if values.length = 8 then some (groupsValue values) else none
  | [gap] => do
    let high := groups.take gap
    let low := groups.drop (gap + 1)
    -- A leading or trailing colon is only half of the double one.
    let high := if high.length = 1 && (parts.head?.any List.isEmpty) then [] else high
    let low := if low.length = 1 && (parts.getLast?.any List.isEmpty) then [] else low
    let before ← allSome high
    let after ← allSome low
    if before.length + after.length < 8 then
      some (groupsValue before * 65536 ^ (8 - before.length) + groupsValue after)
    else none
  | _ => none

/-- `ipaddress.ip_address(s)`. -/
def address? (s : Str) : Option IpAddress :=
  match v4? s with
  | some n => some (.v4 n)
  | none => (v6? s).map .v6

example : address? "127.0.0.1" = some (.v4 0x7f000001) := by decide +kernel

example : address? "::ffff:10.0.0.1" = some (.v6 0xffff0a000001) := by decide +kernel

end Ip

end Python
