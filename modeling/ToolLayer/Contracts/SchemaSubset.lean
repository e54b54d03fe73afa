import ToolLayer.Contracts.Schema

/-! A schema engine for the keywords that conversion emits, regular expressions
apart: enough to run the program on concrete tools. -/
namespace ToolLayer.SchemaSubset
open Python Kit

def typeNames : Value → List JsonType
  | .str s => (JsonType.read s).toList
  | .list items => items.filterMap (fun v => v.text?.bind JsonType.read)
  | _ => []

/-- The number of a value that is not a boolean. -/
def plainNumber? : Value → Option Number
  | .bool _ => none
  | v => v.number?

/-- Whether two numbers, where both are there, stand in the relation. -/
def compare (holds : Number → Number → Bool) (a b : Option Number) : Bool :=
  match a,b with
  | some x,some y => holds x y
  | _,_ => true

def size : Value → Option Number
  | .str s => some (.finite s.length 0)
  | .list items => some (.finite items.length 0)
  | _ => none

def less (a b : Number) : Bool := a.le b && !a.eq b

/-- The keywords that look at the value itself. -/
def holds (schema : Dict) (keyword : Str) (argument instance_ : Value) : Bool :=
  if keyword = Str.lit "type" then (typeNames argument).any instance_.isType
  else if keyword = Str.lit "enum" then
    match argument with | .list allowed => allowed.any (fun v => v.jsonEq instance_) | _ => true
  else if keyword = Str.lit "minimum" then compare (fun a b => a.le b) argument.number? (plainNumber? instance_)
  else if keyword = Str.lit "maximum" then compare (fun a b => b.le a) argument.number? (plainNumber? instance_)
  else if keyword = Str.lit "exclusiveMinimum" then compare less argument.number? (plainNumber? instance_)
  else if keyword = Str.lit "exclusiveMaximum" then
    compare (fun a b => less b a) argument.number? (plainNumber? instance_)
  else match instance_ with
    | .str _ =>
      if keyword = Str.lit "minLength" then compare (fun a b => a.le b) argument.number? (size instance_)
      else if keyword = Str.lit "maxLength" then compare (fun a b => b.le a) argument.number? (size instance_)
      else true
    | .list _ =>
      if keyword = Str.lit "minItems" then compare (fun a b => a.le b) argument.number? (size instance_)
      else if keyword = Str.lit "maxItems" then compare (fun a b => b.le a) argument.number? (size instance_)
      else true
    | .dict members =>
      if keyword = Str.lit "additionalProperties" then
        match argument,Dict.get schema "properties" with
        | .bool false,.dict properties => members.all (fun m => Dict.has properties m.1)
        | .bool false,_ => members.isEmpty
        | _,_ => true
      else true
    | _ => true

/-- `iter_errors`, with a bound on the nesting of schemas. -/
def iterErrors : Nat → Dict → Value → List PathPart → List SchemaError
  | 0,_,_,_ => []
  | levels + 1,schema,instance_,path =>
    schema.flatMap (fun entry =>
      let (keyword,argument) := entry
      match instance_,argument with
      | .dict members,.dict properties =>
        if keyword = Str.lit "properties" then
          properties.flatMap (fun p =>
            match Assoc.get p.1 members,p.2 with
            | some v,.dict nested => iterErrors levels nested v (path ++ [.key p.1])
            | _,_ => [])
        else []
      | .list items,.dict nested =>
        if keyword = Str.lit "items" then
          (items.zipIdx).flatMap (fun item => iterErrors levels nested item.1 (path ++ [.index item.2]))
        else []
      | .dict members,.list names =>
        if keyword = Str.lit "required" then
          (names.filterMap Value.text?).flatMap (fun name =>
            if Dict.has members name then [] else [⟨keyword,path⟩])
        else if holds schema keyword argument instance_ then [] else [⟨keyword,path⟩]
      | _,_ => if holds schema keyword argument instance_ then [] else [⟨keyword,path⟩])

def engine : SchemaEngine where
  iterErrors schema document := .ok (iterErrors 16 schema document [])
  checkSchema _ := true
  dateTime _ := true

end ToolLayer.SchemaSubset
