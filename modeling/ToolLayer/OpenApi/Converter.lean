import ToolLayer.Contracts.ToolModel
import ToolLayer.OpenApi.Naming
import ToolLayer.OpenApi.SchemaConversion

/-! One OpenAPI operation into one tool definition. -/
namespace ToolLayer.OpenApi
open Python Kit Kit.Result

def bodyArgument : Str := "body"

def jsonMediaType : Str := "application/json"

/-- `SUPPORTED_METHODS`, in the order analysis tries them. -/
def supportedMethods : List HttpMethod := [.get,.post,.put,.patch,.delete]

/-- `_METHOD_POLICY`. -/
def methodPolicy : HttpMethod → EffectClass × Bool
  | .get => (.read,false)
  | .post => (.write,false)
  | .put => (.write,false)
  | .patch => (.write,false)
  | .delete => (.destructive,true)

/-- `operation_key` for a method of `SUPPORTED_METHODS`. -/
def operationKey (path method : Str) : Str := method ++ Str.lit " " ++ path

inductive ParameterLocation where
  | path
  | query
  deriving DecidableEq

def ParameterLocation.target : ParameterLocation → BindingTarget
  | .path => .path
  | .query => .query

structure Parameter where
  name : Str
  location : ParameterLocation
  required : Bool
  schema : Dict
  description : Option Str

variable [Unicode]

/-- `d.get(key, default)` for a flag; anything but a boolean is refused with `message`. -/
def flag (d : Dict) (key : Str) (default : Bool) (e : PyExc) : Except PyExc Bool :=
  if Dict.has d key then
    match Dict.get d key with
    | .bool b => .ok b
    | _ => .error e
  else .ok default

def theParameter (name rest : Str) : Str := Str.lit "the parameter " ++ name.repr ++ rest

/-- One round of the flag loop of `_reject_unsupported_serialization`. -/
def rejectFlag (entry : Dict) (name : Str) (key : Str) : Except PyExc Unit := do
  let value ← flag entry key false
    (invalidDocument (theParameter name " has a non-boolean " ++ key.repr))
  refuse value (unsupportedFeature (theParameter name " sets " ++ key.repr ++
    Str.lit ", which the executor does not implement"))

def rejectUnsupportedSerialization (entry : Dict) (name : Str) (location : ParameterLocation) :
    Except PyExc Unit := do
  let defaultStyle : Str := match location with | .path => "simple" | .query => "form"
  let style := if Dict.has entry "style" then Dict.get entry "style" else .str defaultStyle
  if !style.pyEq (.str defaultStyle) then
    let shown ← style.repr
    throw (unsupportedFeature (theParameter name " uses the serialization style " ++ shown ++
      Str.lit ", which the executor does not implement"))
  let defaultExplode := decide (location = .query)
  let explode ← flag entry "explode" defaultExplode
    (invalidDocument (theParameter name " has a non-boolean 'explode'"))
  refuse (explode != defaultExplode) (unsupportedFeature
    (theParameter name " overrides 'explode', which the executor does not implement"))
  rejectFlag entry name "allowReserved"
  rejectFlag entry name "allowEmptyValue"

def parameterLocation (name : Str) (location : Value) : Except PyExc ParameterLocation :=
  match location with
  | .str (c::rest) =>
    let text : Str := c::rest
    if text = "header" ∨ text = "cookie" then
      .error (unsupportedFeature (theParameter name " is a " ++ text ++
        " parameter; header and cookie inputs are not exposed as model-supplied arguments"))
    else if text = "path" then .ok .path
    else if text = "query" then .ok .query
    else .error (invalidDocument (theParameter name " declares an unknown location"))
  | _ => .error (invalidDocument (theParameter name " must declare an 'in' location"))

def parameterName (entry : Dict) : Except PyExc Str := do
  refuse (Dict.has entry "$ref")
    (invalidDocument "a parameter still contains a reference after resolution")
  match Dict.get entry "name" with
  | .str (c::rest) => return c::rest
  | _ => throw (invalidDocument "a parameter must declare a non-empty name")

def parseParameter (source : Str) : Value → Except PyExc Parameter
  | .dict entry => do
    let name ← parameterName entry
    let location ← parameterLocation name (Dict.get entry "in")
    let required ← flag entry "required" false
      (invalidDocument (theParameter name " has a non-boolean 'required'"))
    refuse (decide (location = .path) && !required)
      (invalidDocument (Str.lit "the path parameter " ++ name.repr ++ Str.lit " must declare 'required: true'"))
    rejectUnsupportedSerialization entry name location
    refuse (Dict.has entry "content")
      (unsupportedFeature (theParameter name " uses a media-type-encoded value, which is not supported"))
    match Dict.get entry "schema" with
    | .dict schema =>
      match Dict.get entry "description" with
      | .null => return ⟨name,location,required,schema,none⟩
      | .str text => return ⟨name,location,required,schema,some text.strip⟩
      | _ => throw (invalidDocument (theParameter name " has a non-string description"))
    | _ => throw (invalidDocument (theParameter name " must declare a schema object"))
  | _ => .error (invalidDocument (source ++ Str.lit " parameter entries must be objects"))

abbrev ParameterKey := Str × ParameterLocation

/-- One entry of a source: refused when repeated there, else merged over earlier sources. -/
def mergeParameter (source : Str) (s : List ParameterKey × List (ParameterKey × Parameter)) (entry : Value) :
    Except PyExc (List ParameterKey × List (ParameterKey × Parameter)) := do
  let parameter ← parseParameter source entry
  let key := (parameter.name,parameter.location)
  refuse (decide (key ∈ s.1)) (invalidDocument (Str.lit "the " ++ source ++ Str.lit " declares the parameter " ++
    parameter.name.repr ++ Str.lit " twice"))
  return (s.1 ++ [key],Assoc.set key parameter s.2)

def collectFrom (source : Str) (merged : List (ParameterKey × Parameter)) (raw : Value) :
    Except PyExc (List (ParameterKey × Parameter)) :=
  match raw with
  | .null => .ok merged
  | .list entries => do
    let (_,merged) ← loop (mergeParameter source) ([],merged) entries
    return merged
  | _ => .error (invalidDocument (source ++ Str.lit " 'parameters' must be an array"))

/-- `_collect_parameters`. -/
def collectParameters (pathItem operation : Dict) : Except PyExc (List Parameter) := do
  let merged ← collectFrom "path item" [] (Dict.get pathItem "parameters")
  let merged ← collectFrom "operation" merged (Dict.get operation "parameters")
  return merged.map Prod.snd

/-- `placeholders` and, inside braces, `current`. -/
structure PlaceholderScan where
  found : List Str
  current : Option Str

def scanPoint (s : PlaceholderScan) (c : CodePoint) : Except PyExc PlaceholderScan :=
  if c = CodePoint.openingBrace then
    match s.current with
    | some _ => .error (invalidDocument "the path contains a nested placeholder")
    | none => .ok ⟨s.found,some []⟩
  else if c = CodePoint.closingBrace then
    match s.current with
    | none => .error (invalidDocument "the path contains an unbalanced placeholder")
    | some name => .ok ⟨s.found ++ [name],none⟩
  else match s.current with
    | some name => .ok ⟨s.found,some (name ++ [c])⟩
    | none => .ok s

def smallest (names : List Str) : Option Str :=
  (names.insertionSort (fun a b => Str.le a b = true)).head?

def pathParameterNames (parameters : List Parameter) : List Str :=
  (parameters.filter (fun p => decide (p.location = .path))).map Parameter.name

/-- `_check_path_placeholders`. -/
def checkPathPlaceholders (path : Str) (parameters : List Parameter) : Except PyExc Unit := do
  let scan ← loop scanPoint ⟨[],none⟩ path
  refuse scan.current.isSome (invalidDocument "the path contains an unterminated placeholder")
  refuse (decide (¬ scan.found.Nodup)) (invalidDocument "the path repeats a placeholder name")
  match smallest (scan.found.filter (fun n => !(pathParameterNames parameters).contains n)) with
  | some name => throw (invalidDocument (Str.lit "the path placeholder " ++ name.repr ++
      Str.lit " has no matching path parameter"))
  | none =>
    match smallest ((pathParameterNames parameters).filter (fun n => !scan.found.contains n)) with
    | some name => throw (invalidDocument (Str.lit "the path parameter " ++ name.repr ++
        Str.lit " has no matching path placeholder"))
    | none => return ()

variable [Pydantic]

/-- `properties`, `required` and `bindings` while an operation is converted. -/
structure ArgumentTable where
  properties : Dict
  required : List Str
  bindings : List ArgumentBinding

def setDefault (d : Dict) (key : Str) (value : Value) : Dict :=
  if Dict.has d key then d else Dict.set d key value

/-- One round of the parameter loop of `convert_operation`. -/
def addParameter (table : ArgumentTable) (parameter : Parameter) : Except PyExc ArgumentTable := do
  refuse (Dict.has table.properties parameter.name)
    (unsupportedFeature (Str.lit "the parameter name " ++ parameter.name.repr ++
      " is used in more than one location; the flat argument object cannot represent both"))
  let schema ← convertSchema (maxSchemaDepth + 1) (.dict parameter.schema)
    (Str.lit "/parameters/" ++ parameter.name)
  let described := match parameter.description with
    | some (c::text) => setDefault schema "description" (.str (c::text))
    | _ => schema
  let binding ← ArgumentBinding.make (CodePoint.ofChar '/' :: escape parameter.name)
    parameter.location.target parameter.name
  return ⟨Dict.set table.properties parameter.name (.dict described),
    if parameter.required then table.required ++ [parameter.name] else table.required,
    table.bindings ++ [binding]⟩

/-- One body field's binding. -/
def bodyBinding (name : Str) : Except PyExc ArgumentBinding :=
  ArgumentBinding.make (CodePoint.ofChar '/' :: (bodyArgument ++ CodePoint.ofChar '/' :: escape name)) .body
    (CodePoint.ofChar '/' :: escape name)

/-- The schema object of a JSON request body. -/
def bodySchema (body : Dict) : Except PyExc Dict :=
  match Dict.get body "content" with
  | .dict (first::rest) =>
    let content : Dict := first::rest
    if Dict.has content jsonMediaType then
      match Dict.get content jsonMediaType with
      | .dict media =>
        match Dict.get media "schema" with
        | .dict schema => .ok schema
        | _ => .error (invalidDocument "the request body must declare a schema object")
      | _ => .error (invalidDocument "the request body media type entry must be an object")
    else
      let offered := (smallest (Assoc.keys content)).getD []
      .error (unsupportedFeature (Str.lit "the request body offers " ++ offered.repr ++ Str.lit "; only " ++
        jsonMediaType.repr ++ Str.lit " is supported"))
  | _ => .error (invalidDocument "'requestBody' must declare a content object")

/-- `_convert_request_body`; the flag is whether a media type was returned. -/
def convertRequestBody (operation : Dict) (table : ArgumentTable) : Except PyExc (ArgumentTable × Bool) := do
  match Dict.get operation "requestBody" with
  | .null => return (table,false)
  | .dict body =>
    let schema ← bodySchema body
    refuse (Dict.has table.properties bodyArgument) (unsupportedFeature
      (Str.lit "the operation declares a parameter named " ++ bodyArgument.repr ++
        ", which collides with the request body argument"))
    let converted ← convertSchema (maxSchemaDepth + 1) (.dict schema) "/requestBody"
    refuse (!(Dict.get converted "type").pyEq (.str "object"))
      (unsupportedFeature ("only object request bodies are supported; a scalar or array body cannot be " ++
        "described as a named tool argument"))
    let required ← flag body "required" false (invalidDocument "'requestBody.required' must be a boolean")
    let fields := match Dict.get converted "properties" with | .dict members => Assoc.keys members | _ => []
    let bindings ← each bodyBinding fields
    return (⟨Dict.set table.properties bodyArgument (.dict converted),
      if required then table.required ++ [bodyArgument] else table.required,
      table.bindings ++ bindings⟩,true)
  | _ => throw (invalidDocument "'requestBody' must be an object")

/-- `_operation_id`. -/
def operationIdOf (operation : Dict) : Except PyExc (Option Str) :=
  if Dict.has operation "operationId" then
    match Dict.get operation "operationId" with
    | .str s =>
      if s.strip.isEmpty then
        .error (invalidDocument "'operationId' must be a non-empty string when present")
      else if 256 < s.length then .error (invalidDocument "'operationId' is too long")
      else .ok (some s)
    | _ => .error (invalidDocument "'operationId' must be a non-empty string when present")
  else .ok none

/-- A text field that is more than white space, stripped. -/
def prose (operation : Dict) (field : Str) : Option Str :=
  match Dict.get operation field with
  | .str s => if s.strip.isEmpty then none else some s.strip
  | _ => none

def hasProse (operation : Dict) : Bool :=
  (prose operation "description").isSome || (prose operation "summary").isSome

/-- `_description`. -/
def descriptionOf (operation : Dict) (method : HttpMethod) (path : Str) : Str :=
  match (prose operation "description").or (prose operation "summary") with
  | some text => text.take 1024
  | none =>
    (Str.lit "Call " ++ method.upper ++ Str.lit " " ++ path ++ Str.lit " on the connected API.").take 1024

/-- `_display_name`. -/
def displayNameOf (operation : Dict) (toolName : Str) : Str :=
  match prose operation "summary" with
  | some text => text.take 128
  | none => (toDisplayName toolName).take 128

/-- One round of the loop of `_tags`. -/
def addTag (tags : List Str) (tag : Value) : Except PyExc (List Str) :=
  match tag with
  | .str s =>
    if s.strip.isEmpty then .error (invalidDocument "'tags' entries must be non-empty strings")
    else
      let text := s.strip.take 64
      .ok (if tags.contains text then tags else tags ++ [text])
  | _ => .error (invalidDocument "'tags' entries must be non-empty strings")

def tagsOf (operation : Dict) : Except PyExc (List Str) :=
  if Dict.has operation "tags" then
    match Dict.get operation "tags" with
    | .list raw => do
      let tags ← loop addTag [] raw
      return tags.take 32
    | _ => .error (invalidDocument "'tags' must be an array")
  else .ok []

def deprecatedOf (operation : Dict) : Except PyExc Bool :=
  flag operation "deprecated" false (invalidDocument "'deprecated' must be a boolean")

/-- `_reject_unsupported_operation_features`. -/
def rejectUnsupportedOperationFeatures (pathItem operation : Dict) : Except PyExc Unit := do
  refuse (Dict.has pathItem "servers" || Dict.has operation "servers")
    (unsupportedFeature ("per-path and per-operation server overrides are not supported; the connector " ++
      "declares one reviewed base URL"))
  refuse (Dict.has operation "callbacks") (unsupportedFeature "callbacks are not supported")
  refuse (!Value.isIn (Dict.get operation "security") [.null,.list []])
    (unsupportedFeature ("per-operation security requirements are not interpreted; authentication is a " ++
      "runtime concern resolved from the connector's auth profile"))

def inputSchemaOf (table : ArgumentTable) : Dict :=
  [(Str.lit "$schema",.str ToolDefinition.dialect),
    (Str.lit "type",.str "object"),
    (Str.lit "properties",.dict table.properties),
    (Str.lit "required",.list (table.required.map Value.str)),
    (Str.lit "additionalProperties",.bool false)]

/-- The arguments of an operation: parameters first, then the body. -/
def argumentsOf (path : Str) (pathItem operation : Dict) : Except PyExc (ArgumentTable × Bool) := do
  let parameters ← collectParameters pathItem operation
  checkPathPlaceholders path parameters
  let table ← loop addParameter ⟨[],[],[]⟩ parameters
  convertRequestBody operation table

def toolNameOf (operationId : Option Str) (method : HttpMethod) (path : Str) : Except PyExc Str :=
  match operationId with
  | some s => normalizeToolName s
  | none => .ok (deriveToolName method path)

/-- The `return ToolDefinition(…)` of `convert_operation`. -/
def buildTool (path : Str) (method : HttpMethod) (operation : Dict) (table : ArgumentTable) (jsonBody : Bool)
    (operationId : Option Str) (toolName : Str) : Except PyExc ToolDefinition := do
  let bound ← ToolOperation.make method path table.bindings jsonBody
  let (effectClass,requiresConfirmation) := methodPolicy method
  let tags ← tagsOf operation
  let deprecated ← deprecatedOf operation
  let provenance ← ToolProvenance.make operationId path method tags deprecated
    (if hasProse operation then .source else .generated)
  ToolDefinition.make toolName (displayNameOf operation toolName) (descriptionOf operation method path)
    (inputSchemaOf table) bound ⟨effectClass,requiresConfirmation,ToolAccessPolicy.unrestricted⟩ provenance

def convertOperation (path method : Str) (pathItem operation : Dict) : Except PyExc ToolDefinition := do
  match supportedMethods.find? (fun m => m.lower == Unicode.lower method) with
  | none => throw (unsupportedFeature (Str.lit "the HTTP method " ++ method.repr ++ Str.lit " is not supported"))
  | some normalized =>
    rejectUnsupportedOperationFeatures pathItem operation
    let (table,jsonBody) ← argumentsOf path pathItem operation
    let operationId ← operationIdOf operation
    let toolName ← toolNameOf operationId normalized path
    buildTool path normalized operation table jsonBody operationId toolName

end ToolLayer.OpenApi
