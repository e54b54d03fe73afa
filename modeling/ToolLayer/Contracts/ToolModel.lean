import ToolLayer.Contracts.Errors
import ToolLayer.Contracts.Patterns
import ToolLayer.Kit.Result

/-! The tool models of the contract. A value carries what its validators
checked; the only way to one from loose parts is its `make`. -/
namespace ToolLayer
open Python Kit

/-- What the modelled code leaves to `pydantic`: which texts a plain `str` field takes,
how lax mode reads an `int` or `bool` field, and which keys a JSON-mode dump writes. -/
class Pydantic where
  plainText : Str → Bool
  laxInt : Value → Option Int
  laxBool : Value → Option Bool
  jsonKey : Str → Bool
  plainText_scalar : ∀ s : Str, s.scalar = true → plainText s = true
  laxInt_int : ∀ n, laxInt (.int n) = some n
  laxBool_bool : ∀ b, laxBool (.bool b) = some b
  jsonKey_scalar : ∀ s : Str, s.scalar = true → jsonKey s = true

/-- A pattern or a length bound makes a `str` field read its text as UTF-8, which
has no lone surrogates. -/
def Pydantic.constrainedText (s : Str) : Bool := s.scalar

/-- Every plain text passes, and only integers and booleans are read as such. -/
@[reducible] def Pydantic.exact : Pydantic where
  plainText _ := true
  laxInt | .int n => some n | _ => none
  laxBool | .bool b => some b | _ => none
  jsonKey := Str.scalar
  plainText_scalar _ _ := rfl
  laxInt_int _ := rfl
  laxBool_bool _ := rfl
  jsonKey_scalar _ scalar := scalar

inductive HttpMethod where
  | get
  | post
  | put
  | patch
  | delete
  deriving DecidableEq

namespace HttpMethod

/-- The spelling of `SourceMethod`. -/
def lower : HttpMethod → Str
  | get => "get"
  | post => "post"
  | put => "put"
  | patch => "patch"
  | delete => "delete"

/-- The spelling of `HttpMethod`. -/
def upper : HttpMethod → Str
  | get => "GET"
  | post => "POST"
  | put => "PUT"
  | patch => "PATCH"
  | delete => "DELETE"

end HttpMethod

inductive EffectClass where
  | read
  | write
  | destructive
  deriving DecidableEq

def EffectClass.text : EffectClass → Str
  | .read => "read"
  | .write => "write"
  | .destructive => "destructive"

inductive BindingTarget where
  | path
  | query
  | header
  | body
  deriving DecidableEq

def BindingTarget.text : BindingTarget → Str
  | .path => "path"
  | .query => "query"
  | .header => "header"
  | .body => "body"

inductive DescriptionOrigin where
  | source
  | generated
  | assisted
  | human
  deriving DecidableEq

def DescriptionOrigin.text : DescriptionOrigin → Str
  | .source => "source"
  | .generated => "generated"
  | .assisted => "assisted"
  | .human => "human"

inductive AccessMode where
  | isPublic
  | restricted
  deriving DecidableEq

def AccessMode.text : AccessMode → Str
  | .isPublic => "public"
  | .restricted => "restricted"

/-- Runs a model's validators. -/
def validated {M : Type} (p : Prop) [Decidable p] (build : p → M) : Except PyExc M :=
  if accepted : p then .ok (build accepted) else .error .validationError

theorem validated_eq_ok {M : Type} {p : Prop} [Decidable p] {build : p → M} {m : M} :
    validated p build = .ok m ↔ ∃ accepted : p, build accepted = m := by
  unfold validated
  split
  next accepted => simp [accepted]
  next refused => simp [refused]

theorem validated_eq_error {M : Type} {p : Prop} [Decidable p] {build : p → M} {e : PyExc} :
    validated p build = .error e ↔ ¬ p ∧ e = .validationError := by
  unfold validated
  split
  next accepted => simp [accepted]
  next refused => simp [refused,eq_comm]

/-- A `str` field with length bounds. -/
def boundedText (low high : Nat) (s : Str) : Bool :=
  Pydantic.constrainedText s && decide (low ≤ s.length) && decide (s.length ≤ high)

theorem scalar_of_boundedText {low high : Nat} {s : Str} (bounded : boundedText low high s = true) : s.scalar = true := by
  simp only [boundedText,Bool.and_eq_true,Pydantic.constrainedText] at bounded
  exact bounded.1.1

/-- `ResourceKey`. -/
def resourceKey (s : Str) : Bool := boundedText 1 64 s && Patterns.key s

/-- `ToolName`. -/
def isToolName (s : Str) : Bool := boundedText 1 64 s && Patterns.toolName s

/-- `SemanticVersion`. -/
def semanticVersion (s : Str) : Bool := boundedText 0 64 s && Patterns.semver s

namespace ArgumentBinding

/-- The field constraints and `_body_targets_use_pointers`. -/
def Accepts (argumentPointer : Str) (target : BindingTarget) (targetName : Str) : Prop :=
  (Pydantic.constrainedText argumentPointer && Patterns.jsonPointer argumentPointer &&
    boundedText 1 256 targetName) = true ∧
  (target = .body → Str.startsWith targetName "/" = true) ∧
  (target ≠ .body → CodePoint.ofChar '\n' ∉ targetName)

instance (argumentPointer : Str) (target : BindingTarget) (targetName : Str) :
    Decidable (Accepts argumentPointer target targetName) :=
  inferInstanceAs (Decidable (_ ∧ _))

end ArgumentBinding

/-- Where one validated argument goes in the outbound request. -/
structure ArgumentBinding where
  argumentPointer : Str
  target : BindingTarget
  targetName : Str
  accepted : ArgumentBinding.Accepts argumentPointer target targetName
  deriving DecidableEq

def ArgumentBinding.make (argumentPointer : Str) (target : BindingTarget) (targetName : Str) :
    Except PyExc ArgumentBinding :=
  validated (ArgumentBinding.Accepts argumentPointer target targetName)
    (fun accepted => ⟨argumentPointer,target,targetName,accepted⟩)

namespace ToolOperation

def locations (bindings : List ArgumentBinding) : List (BindingTarget × Str) :=
  bindings.map (fun b => (b.target,b.targetName))

/-- The field constraints and `_bindings_are_consistent`. -/
def Accepts (pathTemplate : Str) (bindings : List ArgumentBinding) (jsonBody : Bool) : Prop :=
  (boundedText 1 2048 pathTemplate && Patterns.pathTemplate Patterns.whiteSpace pathTemplate) = true ∧
  (locations bindings).Nodup ∧
  jsonBody = bindings.any (fun b => b.target == .body)

instance (pathTemplate : Str) (bindings : List ArgumentBinding) (jsonBody : Bool) :
    Decidable (Accepts pathTemplate bindings jsonBody) :=
  inferInstanceAs (Decidable (_ ∧ _))

end ToolOperation

/-- The reviewed HTTP operation a tool is bound to; `jsonBody` is whether
`request_body_media_type` names `application/json`, its only value. -/
structure ToolOperation where
  method : HttpMethod
  pathTemplate : Str
  bindings : List ArgumentBinding
  jsonBody : Bool
  accepted : ToolOperation.Accepts pathTemplate bindings jsonBody
  deriving DecidableEq

def ToolOperation.make (method : HttpMethod) (pathTemplate : Str) (bindings : List ArgumentBinding)
    (jsonBody : Bool) : Except PyExc ToolOperation :=
  validated (ToolOperation.Accepts pathTemplate bindings jsonBody)
    (fun accepted => ⟨method,pathTemplate,bindings,jsonBody,accepted⟩)

namespace ToolAccessPolicy

def Accepts (mode : AccessMode) (roles : List Str) : Prop :=
  (∀ role ∈ roles, resourceKey role = true) ∧ (mode = .isPublic ↔ roles = []) ∧ roles.Nodup ∧
    roles.Pairwise (fun a b => Str.le a b = true)

instance (mode : AccessMode) (roles : List Str) : Decidable (Accepts mode roles) :=
  inferInstanceAs (Decidable (_ ∧ _))

end ToolAccessPolicy

/-- Which callers may use one tool; the roles stand in sorted order. -/
structure ToolAccessPolicy where
  accessMode : AccessMode
  allowedRoles : List Str
  accepted : ToolAccessPolicy.Accepts accessMode allowedRoles
  deriving DecidableEq

/-- `_sorted` runs before `_mode_and_roles_agree`. -/
def ToolAccessPolicy.make (mode : AccessMode) (roles : List Str) : Except PyExc ToolAccessPolicy :=
  let sorted := roles.insertionSort (fun a b => Str.le a b = true)
  validated (ToolAccessPolicy.Accepts mode sorted) (fun accepted => ⟨mode,sorted,accepted⟩)

/-- `ToolAccessPolicy.public()`. -/
def ToolAccessPolicy.unrestricted : ToolAccessPolicy where
  accessMode := .isPublic
  allowedRoles := []
  accepted := ⟨by simp,by simp,List.nodup_nil,List.Pairwise.nil⟩

structure ToolPolicy where
  effectClass : EffectClass
  requiresConfirmation : Bool
  access : ToolAccessPolicy
  deriving DecidableEq

variable [Pydantic]

namespace ToolProvenance

def Accepts (sourceOperationId : Option Str) (sourcePath : Str) (tags : List Str) : Prop :=
  sourceOperationId.all (boundedText 0 256) = true ∧ boundedText 1 2048 sourcePath = true ∧
    tags.all Pydantic.plainText = true

instance (sourceOperationId : Option Str) (sourcePath : Str) (tags : List Str) :
    Decidable (Accepts sourceOperationId sourcePath tags) :=
  inferInstanceAs (Decidable (_ ∧ _))

end ToolProvenance

structure ToolProvenance where
  sourceOperationId : Option Str
  sourcePath : Str
  sourceMethod : HttpMethod
  tags : List Str
  deprecated : Bool
  descriptionOrigin : DescriptionOrigin
  accepted : ToolProvenance.Accepts sourceOperationId sourcePath tags
  deriving DecidableEq

def ToolProvenance.make (sourceOperationId : Option Str) (sourcePath : Str) (sourceMethod : HttpMethod)
    (tags : List Str) (deprecated : Bool) (descriptionOrigin : DescriptionOrigin) :
    Except PyExc ToolProvenance :=
  validated (ToolProvenance.Accepts sourceOperationId sourcePath tags)
    (fun accepted => ⟨sourceOperationId,sourcePath,sourceMethod,tags,deprecated,descriptionOrigin,accepted⟩)

namespace ToolDefinition

def dialect : Str := "https://json-schema.org/draft/2020-12/schema"

/-- `_closed_object_schema`. -/
def closedObjectSchema (schema : Dict) : Bool :=
  Value.pyEq (Dict.get schema "type") (.str "object") &&
  (match Dict.get schema "additionalProperties" with | .bool b => !b | _ => false) &&
  Value.pyEq (Dict.get schema "$schema") (.str dialect) &&
  (match Dict.get schema "properties" with | .dict _ => true | _ => false) &&
  (match Dict.get schema "required" with | .list _ => true | _ => false)

/-- The names the schema's `properties` declare. -/
def declaredNames (schema : Dict) : List Str :=
  match Dict.get schema "properties" with
  | .dict members => Assoc.keys members
  | _ => []

/-- The argument a binding's pointer starts in, still escaped. -/
def bindingRoot (argumentPointer : Str) : Str :=
  (Str.split (Str.lstrip (fun c => c == CodePoint.ofChar '/') argumentPointer) '/').headD []

/-- `_bindings_reference_declared_arguments`. -/
def bindingsDeclared (schema : Dict) (bindings : List ArgumentBinding) : Bool :=
  bindings.all (fun b => decide (bindingRoot b.argumentPointer ∈ declaredNames schema))

def Accepts (toolName displayName description : Str) (inputSchema : Dict) (operation : ToolOperation) : Prop :=
  isToolName toolName = true ∧ boundedText 1 128 displayName = true ∧
  boundedText 1 1024 description = true ∧ closedObjectSchema inputSchema = true ∧
  bindingsDeclared inputSchema operation.bindings = true

instance (toolName displayName description : Str) (inputSchema : Dict) (operation : ToolOperation) :
    Decidable (Accepts toolName displayName description inputSchema operation) :=
  inferInstanceAs (Decidable (_ ∧ _))

end ToolDefinition

/-- One provider-neutral tool. -/
structure ToolDefinition where
  toolName : Str
  displayName : Str
  description : Str
  inputSchema : Dict
  operation : ToolOperation
  policy : ToolPolicy
  provenance : ToolProvenance
  accepted : ToolDefinition.Accepts toolName displayName description inputSchema operation

def ToolDefinition.make (toolName displayName description : Str) (inputSchema : Dict)
    (operation : ToolOperation) (policy : ToolPolicy) (provenance : ToolProvenance) :
    Except PyExc ToolDefinition :=
  validated (ToolDefinition.Accepts toolName displayName description inputSchema operation)
    (fun accepted => ⟨toolName,displayName,description,inputSchema,operation,policy,provenance,accepted⟩)

end ToolLayer
