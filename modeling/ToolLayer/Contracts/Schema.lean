import ToolLayer.Contracts.Errors
import ToolLayer.Python.Unicode
import Mathlib.Data.List.Sort

/-! What the code uses of the JSON Schema package: the errors of one value under
one schema, where each lies, and whether a schema is one at all. -/
namespace ToolLayer
open Python

inductive JsonType where
  | string
  | integer
  | number
  | boolean
  | object
  | array
  | null
  deriving DecidableEq

namespace JsonType

def text : JsonType → Str
  | string => "string"
  | integer => "integer"
  | number => "number"
  | boolean => "boolean"
  | object => "object"
  | array => "array"
  | null => "null"

def all : List JsonType := [string,integer,number,boolean,object,array,null]

def read (s : Str) : Option JsonType := all.find? (fun t => t.text == s)

end JsonType

end ToolLayer

namespace Python.Value
open Kit ToolLayer

mutual
/-- Equality of JSON values, where `true` is not `1`. -/
def jsonEq : Value → Value → Bool
  | .null,.null => true
  | .bool a,.bool b => a == b
  | .str s,.str t => s == t
  | .list xs,.list ys => jsonEqList xs ys
  | .dict ms,.dict ns => decide (ms.length = ns.length) && jsonEqMembers ms ns
  | .int m,.int n => m == n
  | .int m,.float y => Number.eq (.finite m 0) y.number
  | .float x,.int n => x.number.eq (.finite n 0)
  | .float x,.float y => x.number.eq y.number
  | _,_ => false
def jsonEqList : List Value → List Value → Bool
  | [],[] => true
  | x::xs,y::ys => jsonEq x y && jsonEqList xs ys
  | _,_ => false
def jsonEqMembers : Dict → Dict → Bool
  | [],_ => true
  | (key,value)::rest,against =>
    (match Assoc.get key against with
      | some found => jsonEq value found
      | none => false) && jsonEqMembers rest against
end

/-- `is_type`: a float without fraction is an integer too. -/
def isType : Value → JsonType → Bool
  | .null,t => t == .null
  | .bool _,t => t == .boolean
  | .str _,t => t == .string
  | .list _,t => t == .array
  | .dict _,t => t == .object
  | .int _,t => t == .integer || t == .number
  | .float x,t => t == .number || (t == .integer && x.number.integer?.isSome)
  | .other _ _ _,_ => false

end Python.Value

namespace ToolLayer
open Python

/-- One step of `error.absolute_path`. -/
inductive PathPart where
  | key (name : Str)
  | index (i : Nat)
  deriving DecidableEq

namespace PathPart

def le : PathPart → PathPart → Bool
  | key a,key b => Str.le a b
  | index a,index b => decide (a ≤ b)
  | index _,key _ => true
  | key _,index _ => false

def text : PathPart → Str
  | key name => name
  | index i => Decimal.natural i

/-- `list(a) <= list(b)`; two paths that part do so under one parent, on steps of one kind. -/
def listLe : List PathPart → List PathPart → Bool
  | [],_ => true
  | _::_,[] => false
  | a::as,b::bs => if a = b then listLe as bs else a.le b

end PathPart

structure SchemaError where
  keyword : Str
  path : List PathPart
  deriving DecidableEq

/-- The schema package as a parameter: `iter_errors` and `check_schema` of
`Draft202012Validator` on tool schemas, and the format checker. -/
structure SchemaEngine where
  iterErrors : (schema : Dict) → (document : Value) → Except PyExc (List SchemaError)
  checkSchema : Dict → Bool
  /-- `FormatChecker` on `date-time`, the only format it checks here. -/
  dateTime : Str → Bool

/-- RFC 6901 escaping of one pointer token. -/
def escape (token : Str) : Str := Str.replace (Str.replace token "~" "~0") "/" "~1"

def unescape (token : Str) : Str := Str.replace (Str.replace token "~1" "/") "~0" "~"

def escapePoint (c : CodePoint) : Str := if c = '~' then "~0" else if c = '/' then "~1" else [c]

theorem escape_eq_flatMap (token : Str) : escape token = token.flatMap escapePoint := by
  have tilde := Str.replace_single '~' "~0" token
  have slash := Str.replace_single '/' "~1" (Str.replace token "~" "~0")
  rw [escape]
  refine slash.trans ?_
  rw [show Str.replace token "~" "~0" = _ from tilde,List.flatMap_assoc]
  congr 1
  funext c
  unfold escapePoint
  split
  next same =>
    decide
  next other => simp

/-- The two code points a pointer token cannot hold as they are. -/
def needsEscape (c : CodePoint) : Bool := c == '~' || c == '/'

theorem escapePoint_plain {c : CodePoint} (plain : needsEscape c = false) : escapePoint c = [c] := by
  simp only [needsEscape,Bool.or_eq_false_iff,beq_eq_false_iff_ne] at plain
  simp [escapePoint,plain.1,plain.2]

theorem escapePoint_special {c : CodePoint} (special : needsEscape c = true) :
    ∃ d : CodePoint, escapePoint c = [CodePoint.ofChar '~',d] ∧ d ≠ '/' := by
  simp only [needsEscape,Bool.or_eq_true,beq_iff_eq] at special
  rcases special with rfl | rfl
  · exact ⟨'0',by decide,by decide⟩
  · exact ⟨'1',by decide,by decide⟩

theorem slash_not_mem_escape (token : Str) : CodePoint.ofChar '/' ∉ escape token := by
  rw [escape_eq_flatMap]
  intro member
  obtain ⟨c,_,written⟩ := List.mem_flatMap.mp member
  cases special : needsEscape c
  · rw [escapePoint_plain special] at written
    rw [← List.mem_singleton.mp written] at special
    cases special
  · obtain ⟨d,image,other⟩ := escapePoint_special special
    rw [image] at written
    simp only [List.mem_cons,List.not_mem_nil,or_false] at written
    rcases written with tilde | digit
    · exact absurd tilde (by decide)
    · exact other digit.symm

theorem escape_plain {token : Str} (plain : token.any needsEscape = false) : escape token = token := by
  rw [escape_eq_flatMap]
  induction token with
  | nil => rfl
  | cons c rest ih =>
    rw [List.any_cons,Bool.or_eq_false_iff] at plain
    rw [List.flatMap_cons,escapePoint_plain plain.1,ih plain.2]
    rfl

theorem unescape_plain {token : Str} (plain : token.any needsEscape = false) : unescape token = token := by
  have absent : CodePoint.ofChar '~' ∉ token := by
    intro member
    rw [List.any_eq_false] at plain
    exact absurd (plain _ member) (by decide)
  have first : Str.replace token "~1" "/" = token := Str.replace_absent '~' _ _ token absent
  rw [unescape,first]
  exact Str.replace_absent '~' _ _ token absent

theorem length_le_escape (token : Str) : token.length ≤ (escape token).length := by
  rw [escape_eq_flatMap]
  induction token with
  | nil => simp
  | cons c rest ih =>
    rw [List.flatMap_cons,List.length_cons,List.length_append]
    have grows : 1 ≤ (escapePoint c).length := by
      cases special : needsEscape c
      · simp [escapePoint_plain special]
      · obtain ⟨d,image,_⟩ := escapePoint_special special
        simp [image]
    omega

/-- Escaping anything that needs it gives a longer token that needs it again. -/
theorem escape_special {token : Str} (special : token.any needsEscape = true) :
    token.length < (escape token).length ∧ (escape token).any needsEscape = true := by
  rw [escape_eq_flatMap]
  induction token with
  | nil => cases special
  | cons c rest ih =>
    rw [List.flatMap_cons,List.length_cons,List.length_append,List.any_append]
    cases here : needsEscape c
    · rw [List.any_cons,here,Bool.false_or] at special
      obtain ⟨longer,again⟩ := ih special
      rw [escapePoint_plain here,again,Bool.or_true,List.length_singleton]
      exact ⟨by omega,rfl⟩
    · obtain ⟨d,image,_⟩ := escapePoint_special here
      have bound := length_le_escape rest
      rw [escape_eq_flatMap] at bound
      rw [image]
      refine ⟨?_,by simp [needsEscape]⟩
      simp only [List.length_cons,List.length_nil]
      omega

/-- `_pointer`. -/
def pointerOf (path : List PathPart) : Str :=
  path.flatMap (fun part => CodePoint.ofChar '/' :: escape part.text)

/-- `sorted(errors, key=lambda error: list(error.absolute_path))`. -/
def sortErrors (errors : List SchemaError) : List SchemaError :=
  errors.insertionSort (fun a b => PathPart.listLe a.path b.path = true)

theorem sortErrors_eq_nil {errors : List SchemaError} : sortErrors errors = [] ↔ errors = [] := by
  rw [← List.length_eq_zero_iff,sortErrors,List.length_insertionSort,List.length_eq_zero_iff]

variable [Unicode]

/-- One error as a detail of an envelope: the rule and the place, never the value. -/
def errorDetail (subject : Str) (e : SchemaError) : ErrorDetail :=
  ⟨Str.lit "schema." ++ e.keyword,
    Str.lit "the " ++ subject ++ Str.lit " violates the " ++ e.keyword.repr ++ Str.lit " constraint",
    some (pointerOf e.path),.error⟩

end ToolLayer
