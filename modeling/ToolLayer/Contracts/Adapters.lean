import ToolLayer.Contracts.Schema
import ToolLayer.Contracts.ToolModel
import ToolLayer.Kit.Result

/-! The projection of canonical tools into a provider's format: what may be projected at all,
and the strict form of one provider. -/
namespace Python

/-- `s.count(pattern)`: what is found does not overlap. -/
def Str.countFrom (pattern : Str) : Nat → Str → Nat
  | _,[] => 0
  | skip + 1,_::rest => countFrom pattern skip rest
  | 0,c::rest =>
    if pattern.isPrefixOf (c::rest) then countFrom pattern (pattern.length - 1) rest + 1 else countFrom pattern 0 rest

def Str.count (pattern s : Str) : Nat := Str.countFrom pattern 0 s

end Python

namespace ToolLayer.Adapters
open Python Kit Kit.Result

/-- `SUPPORTED_SCHEMA_KEYWORDS`. -/
def supportedSchemaKeywords : List Str :=
  ["$schema","additionalProperties","description","default","enum","exclusiveMaximum","exclusiveMinimum","format","items",
    "maxItems","maxLength","maximum","minItems","minLength","minimum","pattern","properties","required","type"]

def supportedTypes : List Str := ["array","boolean","integer","null","number","object","string"]

def maxNestingDepth : Nat := 8

def maxTotalProperties : Nat := 500

/-- One tool cannot be projected into a provider format without loss. -/
structure AdapterError where
  code : Str
  message : Str
  pointer : Str := []
  deriving DecidableEq

def propertiesOf (schema : Dict) : Option Dict :=
  match Dict.get schema "properties" with
  | .dict properties => some properties
  | _ => none

def itemsOf (schema : Dict) : Option Dict :=
  match Dict.get schema "items" with
  | .dict items => some items
  | _ => none

def propertyPointer (pointer name : Str) : Str := pointer ++ Str.lit "/properties/" ++ escape name

def itemsPointer (pointer : Str) : Str := pointer ++ Str.lit "/items"

/-- `walk_schema`; no schema nests deeper than `fuel`. -/
def walkSchema : Nat → Str → Dict → List (Str × Dict)
  | 0,pointer,schema => [(pointer,schema)]
  | fuel + 1,pointer,schema =>
    (pointer,schema) ::
      (((propertiesOf schema).getD []).flatMap (fun property =>
        match property.2 with
        | .dict child => walkSchema fuel (propertyPointer pointer property.1) child
        | _ => []) ++
      match itemsOf schema with
      | some items => walkSchema fuel (itemsPointer pointer) items
      | none => [])

/-- `pointer.count("/properties/") + pointer.count("/items")`. -/
def depthOf (pointer : Str) : Nat := Str.count "/properties/" pointer + Str.count "/items" pointer

/-- The least keyword outside the audited subset. -/
def unsupportedKeyword (schema : Dict) : Option Str :=
  (((Assoc.keys schema).filter (fun key => !supportedSchemaKeywords.contains key)).insertionSort
    (fun a b => Str.le a b = true)).head?

def isObject (schema : Dict) : Bool := Value.pyEq (Dict.get schema "type") (.str "object")

/-- A type no provider can be given: anything but one of the known names, or nothing. -/
def badType : Value → Bool
  | .null => false
  | .str s => !supportedTypes.contains s
  | _ => true

/-- What `is not False` says of `additionalProperties`. -/
def isOpen (schema : Dict) : Bool :=
  match Dict.get schema "additionalProperties" with
  | .bool false => false
  | _ => true

/-- One round of the loop of `assert_projectable`, with the properties counted so far. -/
def checkSubschema [Unicode] (total : Nat) (entry : Str × Dict) : Except AdapterError Nat := do
  let (pointer,schema) := entry
  refuse (decide (maxNestingDepth < depthOf pointer)) ⟨"schema_nesting_limit_exceeded",
    "the input schema nests deeper than provider projection supports",pointer⟩
  refuse (unsupportedKeyword schema).isSome ⟨"unsupported_schema_keyword",
    Str.lit "the input schema uses the unsupported keyword " ++ ((unsupportedKeyword schema).getD []).repr,pointer⟩
  refuse (badType (Dict.get schema "type")) ⟨"unsupported_schema_type",
    "the input schema uses a type providers cannot be given losslessly",pointer⟩
  refuse (isObject schema && isOpen schema) ⟨"open_object_unsupported",
    "open object schemas cannot be projected without weakening them",pointer⟩
  return if isObject schema then total + ((propertiesOf schema).getD []).length else total

def assertProjectable [Unicode] (schema : Dict) : Except AdapterError Unit := do
  let total ← loop checkSubschema 0 (walkSchema (Value.dict schema).depth [] schema)
  refuse (decide (maxTotalProperties < total)) ⟨"schema_property_limit_exceeded",
    "the input schema declares more properties than provider projection supports",[]⟩

/-- The names a schema lists as required. -/
def requiredOf (schema : Dict) : List Value :=
  match Dict.get schema "required" with
  | .list names => names
  | _ => []

/-- The type of `_allow_null`. -/
def widenType (schema : Dict) (pointer : Str) : Except AdapterError Dict :=
  match Dict.get schema "type" with
  | .list declared =>
    .ok (if Value.isIn (.str "null") declared then schema else Dict.set schema "type" (.list (declared ++ [.str "null"])))
  | .str declared =>
    .ok (if declared = Str.lit "null" then schema else Dict.set schema "type" (.list [.str declared,.str "null"]))
  | _ => .error ⟨"unsupported_schema_shape",
      "an optional property without a declared type cannot be projected to strict mode",pointer⟩

def widenEnum (schema : Dict) : Dict :=
  match Dict.get schema "enum" with
  | .list enum => if Value.isIn .null enum then schema else Dict.set schema "enum" (.list (enum ++ [.null]))
  | _ => schema

/-- `_allow_null`. -/
def allowNull (schema : Dict) (pointer : Str) : Except AdapterError Dict := (widenType schema pointer).map widenEnum

/-- The items of a property schema, `strict` being the call of `_strictify`. -/
def strictItems (strict : Str → Dict → Except AdapterError Dict) (here : Str) (child : Dict) : Except AdapterError Dict :=
  match itemsOf child with
  | none => .ok child
  | some items => (strict (itemsPointer here) items).map (fun items => Dict.set child "items" (.dict items))

/-- What the loop of `_strictify` makes of one property schema. -/
def strictChild (strict : Str → Dict → Except AdapterError Dict) (here : Str) (isRequired : Bool) (value : Dict) :
    Except AdapterError Dict := do
  let child ← strict here value
  let child ← strictItems strict here child
  if isRequired then .ok child else allowNull child here

def strictProperty (strict : Str → Dict → Except AdapterError Dict) (pointer : Str) (required : List Value)
    (property : Str × Value) : Except AdapterError (Str × Value) :=
  match property.2 with
  | .dict value =>
    (strictChild strict (propertyPointer pointer property.1) (Value.isIn (.str property.1) required) value).map
      (fun child => (property.1,.dict child))
  | _ => .error ⟨"unsupported_schema_shape","a property schema must be an object",propertyPointer pointer property.1⟩

/-- `_strictify`; no schema nests deeper than `fuel`. -/
def strictify : Nat → Str → Dict → Except AdapterError Dict
  | 0,_,schema => .ok schema
  | fuel + 1,pointer,schema =>
    if isObject schema then
      match propertiesOf schema with
      | none => .ok schema
      | some properties =>
        (each (strictProperty (strictify fuel) pointer (requiredOf schema)) properties).map (fun strict =>
          Dict.set (Dict.set (Dict.set schema "properties" (.dict strict))
            "required" (.list ((Assoc.keys properties).map .str))) "additionalProperties" (.bool false))
    else .ok schema

variable [Unicode] [Pydantic]

/-- The `parameters` of `OpenAIToolAdapter.project_tool`. -/
def projectedParameters (tool : ToolDefinition) : Except AdapterError Dict := do
  assertProjectable tool.inputSchema
  let schema := Dict.without tool.inputSchema ["$schema"]
  strictify (Value.dict schema).depth [] schema

/-- `OpenAIToolAdapter.project_tool`. -/
def projectTool (tool : ToolDefinition) : Except AdapterError Dict := do
  let projected ← projectedParameters tool
  return [("type",.str "function"),
    ("function",.dict [("name",.str tool.toolName),("description",.str tool.description),("parameters",.dict projected),
      ("strict",.bool true)])]

end ToolLayer.Adapters
