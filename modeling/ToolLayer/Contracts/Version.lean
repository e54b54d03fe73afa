import ToolLayer.Contracts.Errors
import ToolLayer.Contracts.Patterns
import ToolLayer.Kit.Result
import ToolLayer.Python.Json

/-! Semantic versions: parsing, support and precedence. -/
namespace ToolLayer
open Python Kit Kit.Result

structure ContractVersion where
  major : Nat
  minor : Nat
  patch : Nat
  prerelease : Option Str
  deriving DecidableEq

def contractVersion : Str := "1.1.0"

def incompatible (message : Str) : PyExc := .own (.incompatibleVersion message)

/-- `int(s)` on ASCII digits: too many of them raise `ValueError`. -/
def decimalInt (s : Str) : Except PyExc Nat :=
  if s.length ≤ Decimal.maxDigits then .ok (Str.digitsValue s) else .error .valueError

/-- The groups of `_SEMVER.match`, whose `$` tolerates a final line break. -/
def semverMatch (s : Str) : Option (Str × Str × Str × Option Str) :=
  match Patterns.semverParts s with
  | some parts => some parts
  | none => if s.getLast? = some (CodePoint.ofChar '\n') then Patterns.semverParts s.dropLast else none

def parseVersion : Value → Except PyExc ContractVersion
  | .str s =>
    match semverMatch s with
    | none => .error (incompatible "version is not a Semantic Versioning value")
    | some (major,minor,patch,prerelease) => do
      let major ← decimalInt major
      let minor ← decimalInt minor
      let patch ← decimalInt patch
      return ⟨major,minor,patch,prerelease⟩
  | _ => .error (incompatible "version must be a string")

/-- `CONTRACT_VERSION`, parsed. -/
def supportedVersion : ContractVersion := ⟨1,1,0,none⟩

theorem parseVersion_contractVersion : parseVersion (.str contractVersion) = .ok supportedVersion := by
  decide +kernel

def requireSupported (value : Value) : Except PyExc ContractVersion := do
  let declared ← parseVersion value
  if declared.major ≠ supportedVersion.major then do
    let major ← Decimal.str declared.major
    throw (incompatible (Str.lit "contract major version " ++ major ++
      Str.lit " is not supported by this build (expected 1)"))
  refuse (decide (supportedVersion.minor < declared.minor))
    (incompatible "contract minor version is newer than this build understands")
  return declared

/-- The three numbers in tuple order. -/
def coreLess (a b : ContractVersion) : Bool :=
  decide (a.major < b.major) || (a.major == b.major &&
    (decide (a.minor < b.minor) || (a.minor == b.minor && decide (a.patch < b.patch))))

def sameCore (a b : ContractVersion) : Bool := a.major == b.major && a.minor == b.minor && a.patch == b.patch

def comparePrecedence (left right : ContractVersion) : Int :=
  if !sameCore left right then (if coreLess left right then -1 else 1)
  else match left.prerelease,right.prerelease with
    | none,none => 0
    | none,some _ => 1
    | some _,none => -1
    | some p,some q => if p = q then 0 else if Str.le p q then -1 else 1

/-- `left > right` on the named tuples: a prerelease and `None` do not compare. -/
def tupleGreater (left right : ContractVersion) : Except PyExc Bool :=
  if !sameCore left right then .ok (coreLess right left)
  else match left.prerelease,right.prerelease with
    | none,none => .ok false
    | some p,some q => .ok (p != q && Str.le q p)
    | _,_ => .error .typeError

/-- `left` precedes `right`. -/
def Precedes (left right : ContractVersion) : Prop := comparePrecedence left right < 0

instance (left right : ContractVersion) : Decidable (Precedes left right) :=
  inferInstanceAs (Decidable (comparePrecedence left right < 0))

end ToolLayer
