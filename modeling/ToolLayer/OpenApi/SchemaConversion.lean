import ToolLayer.Contracts.Schema
import ToolLayer.Python.Unicode
import ToolLayer.Kit.Result

/-! OpenAPI schema objects into Draft 2020-12 schemas, by an allowlist of keywords. -/
namespace ToolLayer.OpenApi
open Python Kit Kit.Result

def maxSchemaDepth : Nat := 8

/-- `_matches_type`. -/
def matchesType (t : JsonType) : Value → Bool
  | .str _ => t == .string
  | .bool _ => t == .boolean
  | .int _ => t == .integer || t == .number
  | .float _ => t == .number
  | .list _ => t == .array
  | .dict _ => t == .object
  | .null => t == .null
  | .other _ _ _ => false

def annotationKeywords : List Str := ["description","title"]
def stringKeywords : List Str := ["format","maxLength","minLength","pattern"]
def numberKeywords : List Str := ["maximum","minimum"]
def arrayKeywords : List Str := ["maxItems","minItems"]
def ignoredKeywords : List Str :=
  ["example","examples","externalDocs","readOnly","writeOnly","xml","discriminator"]
def compositionKeywords : List Str := ["allOf","anyOf","not","oneOf"]

/-- `_apply_nullable`. -/
def applyNullable (schema converted : Dict) (pointer : Str) : Except PyExc Dict :=
  match Dict.get schema "nullable" with
  | .null => .ok converted
  | .bool true => .ok (Dict.set converted "type" (.list [Dict.get converted "type",.str "null"]))
  | .bool false => .ok converted
  | _ => .error (invalidDocument "'nullable' must be a boolean" pointer)

/-- One round of `_apply_annotations`. -/
def annotate (schema : Dict) (pointer : Str) (converted : Dict) (keyword : Str) : Except PyExc Dict :=
  if Dict.has schema keyword then
    match Dict.get schema keyword with
    | .str s =>
      let text := Str.strip s
      .ok (if text.isEmpty then converted else Dict.set converted keyword (.str text))
    | _ => .error (invalidDocument (Str.lit "'" ++ keyword ++ Str.lit "' must be a string") pointer)
  else .ok converted

def applyEnum (schema converted : Dict) (t : JsonType) (pointer : Str) : Except PyExc Dict :=
  if Dict.has schema "enum" then
    match Dict.get schema "enum" with
    | .list (first::rest) =>
      if (first::rest).all (fun v => matchesType .null v || matchesType t v) then
        .ok (Dict.set converted "enum" (.list (first::rest)))
      else .error (invalidDocument "an 'enum' value does not match the declared type" pointer)
    | _ => .error (invalidDocument "'enum' must be a non-empty array" pointer)
  else .ok converted

def applyDefault (schema converted : Dict) (t : JsonType) (pointer : Str) : Except PyExc Dict :=
  if Dict.has schema "default" then
    let default := Dict.get schema "default"
    if !matchesType t default then
      .error (invalidDocument "'default' does not match the declared type" pointer)
    else match Dict.get converted "enum" with
      | .list allowed =>
        if Value.isIn default allowed then .ok (Dict.set converted "default" default)
        else .error (invalidDocument "'default' is not one of the enum values" pointer)
      | _ => .ok (Dict.set converted "default" default)
  else .ok converted

/-- One round of `_copy_supported`. -/
def copySupported (schema : Dict) (pointer : Str) (converted : Dict) (keyword : Str) : Except PyExc Dict :=
  if Dict.has schema keyword then
    let value := Dict.get schema keyword
    if keyword = Str.lit "pattern" ∨ keyword = Str.lit "format" then
      match value with
      | .str (_::_) => .ok (Dict.set converted keyword value)
      | _ => .error (invalidDocument (Str.lit "'" ++ keyword ++ Str.lit "' must be a non-empty string") pointer)
    else match value with
      | .int _ | .float _ => .ok (Dict.set converted keyword value)
      | _ => .error (invalidDocument (Str.lit "'" ++ keyword ++ Str.lit "' must be a number") pointer)
  else .ok converted

/-- One round of `_apply_exclusive_bounds`: the boolean form takes the bound over. -/
def applyExclusiveBound (schema : Dict) (pointer : Str) (converted : Dict) (bounds : Str × Str) :
    Except PyExc Dict :=
  let (bound,exclusive) := bounds
  if Dict.has schema exclusive then
    match Dict.get schema exclusive with
    | .bool false => .ok converted
    | .bool true =>
      match Dict.get converted bound with
      | .null =>
        .error (invalidDocument (Str.lit "'" ++ exclusive ++ Str.lit ": true' requires a '" ++ bound ++
          Str.lit "'") pointer)
      | inclusive => .ok (Dict.set (Assoc.erase bound converted) exclusive inclusive)
    | .int n => .ok (Dict.set converted exclusive (.int n))
    | .float x => .ok (Dict.set converted exclusive (.float x))
    | _ =>
      .error (invalidDocument (Str.lit "'" ++ exclusive ++ Str.lit "' must be a number or a boolean") pointer)
  else .ok converted

def exclusiveBounds : List (Str × Str) :=
  [(Str.lit "minimum",Str.lit "exclusiveMinimum"),(Str.lit "maximum",Str.lit "exclusiveMaximum")]

/-- The keywords a schema of this type may hold. -/
def knownKeywords (t : JsonType) : List Str :=
  (["type","nullable","enum","default","exclusiveMinimum","exclusiveMaximum"] : List Str) ++ annotationKeywords ++
  ignoredKeywords ++
  (match t with
    | .string => stringKeywords
    | .integer | .number => numberKeywords
    | .array => arrayKeywords ++ [Str.lit "items"]
    | .object => (["properties","required","additionalProperties"] : List Str)
    | _ => [])

variable [Unicode]

/-- `_reject_unknown_keywords`; the first unknown keyword in sorted order is named. -/
def rejectUnknownKeywords (schema : Dict) (t : JsonType) (pointer : Str) : Except PyExc Unit :=
  match ((Assoc.keys schema).filter (fun k => !(knownKeywords t).contains k)).insertionSort
      (fun a b => Str.le a b = true) with
  | [] => .ok ()
  | unknown::_ =>
    .error (unsupportedFeature (Str.lit "the schema keyword " ++ Str.repr unknown ++
      Str.lit " is not supported for a " ++ Str.repr t.text ++ Str.lit " schema") pointer)

/-- The entries of an object schema's `required`, once each. -/
def requiredNames (properties : Dict) (pointer : Str) (raw : List Value) : Except PyExc (List Str) :=
  loop (fun required entry =>
    match entry with
    | .str name =>
      if !Dict.has properties name then
        .error (invalidDocument "'required' names a property the schema does not declare"
          (pointer ++ Str.lit "/required"))
      else .ok (if required.contains name then required else required ++ [name])
    | _ => .error (invalidDocument "'required' entries must be strings" (pointer ++ Str.lit "/required")))
    [] raw

def declaredType (schema : Dict) (pointer : Str) : Except PyExc JsonType :=
  match Dict.get schema "type" with
  | .list _ => .error (unsupportedFeature "union types are only supported through 'nullable'" pointer)
  | .null =>
    .error (unsupportedFeature "the schema does not declare a type; untyped values cannot be validated" pointer)
  | .str s =>
    match JsonType.read s with
    | some t => .ok t
    | none => .error (unsupportedFeature "the schema declares an unsupported type" pointer)
  | _ => .error (unsupportedFeature "the schema declares an unsupported type" pointer)

/-- `_convert_object`, given the converter for nested schemas. -/
def convertObject (nested : Value → Str → Except PyExc Dict) (schema : Dict) (pointer : Str) :
    Except PyExc (Dict × List Str) := do
  let raw ← match Dict.get schema "properties" with
    | .dict (first::rest) => Except.ok (first::rest)
    | _ => .error (unsupportedFeature ("an object schema must declare at least one property; free-form objects cannot " ++
        "be validated and are refused rather than passed through") pointer)
  refuse (!Value.isIn (Dict.get schema "additionalProperties") [.null,.bool false])
    (unsupportedFeature ("an object schema that permits additional properties cannot be converted into a " ++
      "closed tool schema") pointer)
  let properties ← loop (fun (properties : Dict) (entry : Str × Value) =>
    if entry.1.isEmpty then
      .error (invalidDocument "a property name must be a non-empty string" pointer)
    else match nested entry.2 (pointer ++ Str.lit "/properties/" ++ escape entry.1) with
      | .ok converted => .ok (Dict.set properties entry.1 (.dict converted))
      | .error e => .error e) ([] : Dict) raw
  let required ← match Dict.get schema "required" with
    | .list entries => requiredNames properties pointer entries
    | _ =>
      if Dict.has schema "required" then
        .error (invalidDocument "'required' must be an array" (pointer ++ Str.lit "/required"))
      else .ok []
  return (properties,required)

/-- The keywords a type brings with it, given the converter for nested schemas. -/
def applyType (nested : Value → Str → Except PyExc Dict) (schema converted : Dict) (t : JsonType) (pointer : Str) :
    Except PyExc Dict :=
  match t with
  | .string => loop (copySupported schema pointer) converted stringKeywords
  | .integer | .number => do
    let converted ← loop (copySupported schema pointer) converted numberKeywords
    loop (applyExclusiveBound schema pointer) converted exclusiveBounds
  | .array => do
    let converted ← loop (copySupported schema pointer) converted arrayKeywords
    match Dict.get schema "items" with
    | .null => throw (unsupportedFeature "an array schema must declare its items" pointer)
    | items => do
      let element ← nested items (pointer ++ Str.lit "/items")
      return Dict.set converted "items" (.dict element)
  | .object => do
    let (properties,required) ← convertObject nested schema pointer
    return Dict.set (Dict.set (Dict.set converted "properties" (.dict properties)) "required"
      (.list (required.map Value.str))) "additionalProperties" (.bool false)
  | _ => .ok converted

/-- `convert_schema`; `levels` counts how many more levels of nesting are allowed. -/
def convertSchema : Nat → Value → Str → Except PyExc Dict
  | levels, .dict schema, pointer => do
    match levels with
    | 0 => .error (unsupportedFeature "the schema nests deeper than 8 levels" pointer)
    | levels + 1 =>
      match compositionKeywords.filter (fun k => Dict.has schema k) with
      | keyword::_ =>
        .error (unsupportedFeature (Str.lit "the schema keyword " ++ Str.repr keyword ++
          Str.lit " is not supported") pointer)
      | [] => do
        refuse (Dict.has schema "$ref")
          (invalidDocument "the schema still contains a reference after resolution" pointer)
        let t ← declaredType schema pointer
        let converted ← applyNullable schema [(Str.lit "type",.str t.text)] pointer
        let converted ← loop (annotate schema pointer) converted annotationKeywords
        let converted ← applyEnum schema converted t pointer
        let converted ← applyDefault schema converted t pointer
        let converted ← applyType (convertSchema levels) schema converted t pointer
        rejectUnknownKeywords schema t pointer
        return converted
  | _, _, pointer => .error (invalidDocument "a schema must be an object" pointer)

end ToolLayer.OpenApi
