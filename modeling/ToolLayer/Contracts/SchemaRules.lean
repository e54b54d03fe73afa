import ToolLayer.Contracts.Patterns
import ToolLayer.Contracts.Schema

/-! The schema keywords the packaged contract schemas use, each as the list of
errors it finds, in the order the validator yields them. -/
namespace ToolLayer
open Python Kit

abbrev Rule := Value → List SchemaError

namespace Rule

def leaf (keyword : Str) (holds : Value → Bool) : Rule := fun v => if holds v then [] else [⟨keyword,[]⟩]

def under (part : PathPart) (e : SchemaError) : SchemaError := ⟨e.keyword,part::e.path⟩

/-- The keywords of one schema object, and what a `$ref` stands for. -/
def all (rules : List Rule) : Rule := fun v => rules.flatMap (fun rule => rule v)

def type (types : List JsonType) : Rule := leaf "type" (fun v => types.any v.isType)

def const (expected : Value) : Rule := leaf "const" (fun v => v.jsonEq expected)

def enum (values : List Value) : Rule := leaf "enum" (fun v => values.any (fun w => w.jsonEq v))

/-- A keyword that looks at texts and passes everything else. -/
def onText (keyword : Str) (holds : Str → Bool) : Rule :=
  leaf keyword (fun v => match v with | .str s => holds s | _ => true)

def minLength (n : Nat) : Rule := onText "minLength" (fun s => decide (n ≤ s.length))

def maxLength (n : Nat) : Rule := onText "maxLength" (fun s => decide (s.length ≤ n))

/-- The pattern is anchored at both ends; its `$` is that of `re`. -/
def pattern (exact : Str → Bool) : Rule := onText "pattern" (Patterns.beforeFinalNewline exact)

def format (valid : Str → Bool) : Rule := onText "format" valid

def onArray (keyword : Str) (holds : List Value → Bool) : Rule :=
  leaf keyword (fun v => match v with | .list items => holds items | _ => true)

def minItems (n : Nat) : Rule := onArray "minItems" (fun items => decide (n ≤ items.length))

def maxItems (n : Nat) : Rule := onArray "maxItems" (fun items => decide (items.length ≤ n))

def distinct : List Value → Bool
  | [] => true
  | item::rest => !rest.any (fun other => item.jsonEq other) && distinct rest

def uniqueItems : Rule := onArray "uniqueItems" distinct

def minimum (n : Int) : Rule :=
  leaf "minimum" (fun v => match v with
    | .int m => decide (n ≤ m)
    | .float x => !(x.number.le (.finite n 0) && !x.number.eq (.finite n 0))
    | _ => true)

/-- One error for each missing name. -/
def required (names : List Str) : Rule
  | .dict members => (names.filter (fun name => !Dict.has members name)).map (fun _ => ⟨"required",[]⟩)
  | _ => []

/-- `"additionalProperties": false` beside these `properties`. -/
def closed (names : List Str) : Rule :=
  leaf "additionalProperties" (fun v => match v with
    | .dict members => members.all (fun m => names.contains m.1)
    | _ => true)

def property (members : Dict) (p : Str × Rule) : List SchemaError :=
  match Assoc.get p.1 members with
  | some value => (p.2 value).map (under (.key p.1))
  | none => []

def properties (rules : List (Str × Rule)) : Rule
  | .dict members => rules.flatMap (property members)
  | _ => []

/-- The usual closed object: its type, no other member, every member there. -/
def object (rules : List (Str × Rule)) : Rule :=
  all [type [.object],closed (rules.map (·.1)),required (rules.map (·.1)),properties rules]

def items (rule : Rule) : Rule
  | .list values => values.zipIdx.flatMap (fun item => (rule item.1).map (under (.index item.2)))
  | _ => []

def oneOf (rules : List Rule) : Rule := leaf "oneOf" (fun v => (rules.filter (fun rule => (rule v).isEmpty)).length == 1)

def ifThenElse (condition met unmet : Rule) : Rule :=
  fun v => if (condition v).isEmpty then met v else unmet v

section Acceptance

variable {v : Value} {keyword : Str} {rules : List Rule} {named : List (Str × Rule)} {members : Dict}

@[simp] theorem leaf_eq_nil {holds : Value → Bool} : leaf keyword holds v = [] ↔ holds v = true := by
  cases accepted : holds v <;> simp [leaf,accepted]

@[simp] theorem all_eq_nil : all rules v = [] ↔ ∀ rule ∈ rules, rule v = [] := by
  simp [all,List.flatMap_eq_nil_iff]

theorem all_cons_eq_nil {rule : Rule} : all (rule::rules) v = [] ↔ rule v = [] ∧ all rules v = [] := by
  simp

@[simp] theorem onText_eq_nil {holds : Str → Bool} {s : Str} :
    onText keyword holds (.str s) = [] ↔ holds s = true := by
  simp [onText]

theorem onText_null (holds : Str → Bool) : onText keyword holds .null = [] := by
  simp [onText]

@[simp] theorem onArray_eq_nil {holds : List Value → Bool} {values : List Value} :
    onArray keyword holds (.list values) = [] ↔ holds values = true := by
  simp [onArray]

@[simp] theorem required_eq_nil {names : List Str} :
    required names (.dict members) = [] ↔ ∀ name ∈ names, Dict.has members name = true := by
  simp [required]

@[simp] theorem closed_eq_nil {names : List Str} :
    closed names (.dict members) = [] ↔ ∀ m ∈ members, m.1 ∈ names := by
  simp [closed]

theorem property_eq_nil {p : Str × Rule} :
    property members p = [] ↔ ∀ value, Assoc.get p.1 members = some value → p.2 value = [] := by
  unfold property
  cases found : Assoc.get p.1 members <;> simp

@[simp] theorem properties_eq_nil :
    properties named (.dict members) = [] ↔
      ∀ p ∈ named, ∀ value, Assoc.get p.1 members = some value → p.2 value = [] := by
  simp only [properties,List.flatMap_eq_nil_iff,property_eq_nil]

/-- What an accepted closed object is. -/
theorem object_eq_nil : object named v = [] ↔ ∃ members, v = .dict members ∧ (∀ m ∈ members, m.1 ∈ named.map (·.1)) ∧
      ∀ p ∈ named, ∃ value, Assoc.get p.1 members = some value ∧ p.2 value = [] := by
  constructor
  · intro accepted
    simp only [object,all_cons_eq_nil] at accepted
    obtain ⟨typed,extra,present,each,_⟩ := accepted
    have dict : ∃ members, v = .dict members := by
      cases v <;> simp_all [type,Value.isType]
    obtain ⟨members,rfl⟩ := dict
    refine ⟨members,rfl,closed_eq_nil.mp extra,?_⟩
    intro p member
    have there : Dict.has members p.1 = true := required_eq_nil.mp present _ (List.mem_map_of_mem member)
    obtain ⟨value,found⟩ := Option.isSome_iff_exists.mp there
    exact ⟨value,found,properties_eq_nil.mp each p member value found⟩
  · rintro ⟨members,rfl,extra,each⟩
    simp only [object,all_cons_eq_nil,closed_eq_nil,required_eq_nil,properties_eq_nil]
    refine ⟨by simp [type,Value.isType],extra,?_,?_,by simp [all]⟩
    · intro name member
      obtain ⟨p,inside,rfl⟩ := List.mem_map.mp member
      obtain ⟨value,found,_⟩ := each p inside
      simp [Dict.has,found]
    · intro p inside value found
      obtain ⟨other,same,accepted⟩ := each p inside
      rw [found] at same
      cases same
      exact accepted

@[simp] theorem items_eq_nil {rule : Rule} {values : List Value} :
    items rule (.list values) = [] ↔ ∀ value ∈ values, rule value = [] := by
  simp only [items,List.flatMap_eq_nil_iff,List.map_eq_nil_iff]
  constructor
  · intro each value member
    obtain ⟨i,bound,rfl⟩ := List.mem_iff_getElem.mp member
    exact each (values[i],i) (List.mk_mem_zipIdx_iff_getElem?.mpr (List.getElem?_eq_getElem bound))
  · intro each item member
    exact each item.1 (List.fst_mem_of_mem_zipIdx member)

theorem type_eq_nil {types : List JsonType} : type types v = [] ↔ ∃ t ∈ types, v.isType t = true := by
  simp [type]

theorem type_object_eq_nil : type [.object] v = [] ↔ ∃ members, v = .dict members := by
  rw [type_eq_nil]
  cases v <;> simp [Value.isType]

theorem type_array_eq_nil : type [.array] v = [] ↔ ∃ values, v = .list values := by
  rw [type_eq_nil]
  cases v <;> simp [Value.isType]

theorem type_string_eq_nil : type [.string] v = [] ↔ ∃ s, v = .str s := by
  rw [type_eq_nil]
  cases v <;> simp [Value.isType]

theorem type_boolean_eq_nil : type [.boolean] v = [] ↔ ∃ b, v = .bool b := by
  rw [type_eq_nil]
  cases v <;> simp [Value.isType]

theorem const_str_eq_nil {s : Str} : const (.str s) v = [] ↔ v = .str s := by
  rw [const,leaf_eq_nil]
  cases v <;> simp [Value.jsonEq]

theorem enum_str_eq_nil {texts : List Str} : enum (texts.map .str) v = [] ↔ ∃ s ∈ texts, v = .str s := by
  rw [enum,leaf_eq_nil,List.any_map,List.any_eq_true]
  constructor
  · rintro ⟨s,member,equal⟩
    refine ⟨s,member,?_⟩
    cases v <;> simp_all [Value.jsonEq]
  · rintro ⟨s,member,rfl⟩
    exact ⟨s,member,by simp [Value.jsonEq]⟩

end Acceptance

end Rule

end ToolLayer
