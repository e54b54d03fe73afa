import ToolLayer.Contracts.Documents
import ToolLayer.Contracts.Dump
import ToolLayer.Contracts.Validation

/-! What a reviewer decided about a proposal, stored beside it, and whether the two
together can be published. -/
namespace ToolLayer.ControlPlane
open Python Kit Kit.Result

def maxDescription : Nat := 1024

/-- `d.get(key, default)`. -/
def getOr (d : Dict) (key : Str) (default : Value) : Value := (Assoc.get key d).getD default

/-- `d.get` on something that may not be a dictionary. -/
def asMapping : Value → Except PyExc Dict
  | .dict members => .ok members
  | _ => .error .attributeError

/-- `tuple(v)`. -/
def tupleOf : Value → Except PyExc (List Value)
  | .list items => .ok items
  | .str s => .ok (s.map (fun c => .str [c]))
  | .dict members => .ok (members.map (fun m => .str m.1))
  | _ => .error .typeError

def invalidRequest (message pointer : Str) : PyExc := toolLayerError .invalidRequest message (some pointer)

/-- One reviewer's decisions about one operation. What was stored as a literal type is
whatever value the row holds. -/
structure OperationReview where
  operationKey : Str
  selection : Value
  description : Str
  descriptionOrigin : Value
  effectClass : Value
  requiresConfirmation : Bool
  accessMode : Value
  allowedRoles : List Value

namespace OperationReview

def toDict (r : OperationReview) : Value :=
  .dict [("operation_key",.str r.operationKey),("selection",r.selection),("description",.str r.description),
    ("description_origin",r.descriptionOrigin),("effect_class",r.effectClass),
    ("requires_confirmation",.bool r.requiresConfirmation),("access_mode",r.accessMode),
    ("allowed_roles",.list r.allowedRoles)]

def fromDict [Unicode] (entry : Value) : Except PyExc OperationReview := do
  let payload ← asDict entry
  let key ← item payload "operation_key"
  let key ← strOf key
  let description ← strOf (getOr payload "description" (.str []))
  let roles ← tupleOf (getOr payload "allowed_roles" (.list []))
  return ⟨key,getOr payload "selection" (.str "included"),description,
    getOr payload "description_origin" (.str "source"),getOr payload "effect_class" (.str "read"),
    (getOr payload "requires_confirmation" (.bool false)).truthy,getOr payload "access_mode" (.str "public"),roles⟩

def included (r : OperationReview) : Bool := Value.pyEq r.selection (.str "included")

end OperationReview

/-- `ToolAccessPolicy(access_mode=…, allowed_roles=…)`. -/
def accessPolicyOf (mode : Value) (roles : List Value) : Except PyExc ToolAccessPolicy :=
  match ToolAccessPolicy.read (.dict [("access_mode",mode),("allowed_roles",.list roles)]) with
  | some policy => .ok policy
  | none => .error .validationError

/-- `sorted(self.allowed_roles)`: only texts are ever stored, and nothing else compares. -/
def sortedRoles (roles : List Value) : Except PyExc (List Value) :=
  match roles.mapM Value.text? with
  | some texts => .ok ((texts.insertionSort (fun a b => Str.le a b = true)).map .str)
  | none => if roles.length ≤ 1 then .ok roles else .error .typeError

def OperationReview.accessPolicy (r : OperationReview) : Except PyExc ToolAccessPolicy := do
  let roles ← sortedRoles r.allowedRoles
  accessPolicyOf r.accessMode roles

structure ReviewState where
  operations : List OperationReview

namespace ReviewState

def toDict (state : ReviewState) : Dict := [("operations",.list (state.operations.map OperationReview.toDict))]

def fromDict [Unicode] (payload : Dict) : Except PyExc ReviewState := do
  let raw ← tupleOf (getOr payload "operations" (.list []))
  let operations ← each OperationReview.fromDict raw
  return ⟨operations⟩

def get (state : ReviewState) (operationKey : Str) : Option OperationReview :=
  state.operations.find? (fun entry => entry.operationKey == operationKey)

def included (state : ReviewState) : List OperationReview := state.operations.filter OperationReview.included

end ReviewState

/-- A requested change to one operation; what is absent stays as it is. -/
structure ReviewUpdate where
  operationKey : Str
  selection : Option Str := none
  description : Option Str := none
  descriptionOrigin : Option Str := none
  effectClass : Option Str := none
  requiresConfirmation : Option Bool := none
  accessMode : Option Str := none
  allowedRoles : Option (List Str) := none

section Analysis

variable [Unicode]

/-- The operations of a stored analysis with their keys and tools, those without a tool left out. -/
def analyzedOperations (analysis : Dict) : Except PyExc (List (Str × Value)) := do
  let operations ← tupleOf (getOr analysis "operations" (.list []))
  let entries ← each (fun operation => do
    let members ← asMapping operation
    match Dict.get members "tool" with
    | .null => return none
    | tool => do
      let key ← item members "key"
      let key ← strOf key
      return some (key,tool)) operations
  return entries.filterMap id

/-- The converter's own proposal for one tool. -/
def initialEntry (entry : Str × Value) : Except PyExc OperationReview := do
  let tool ← asMapping entry.2
  let policy ← asMapping (getOr tool "policy" (.dict []))
  let access ← asMapping (getOr policy "access" (.dict []))
  let description ← item tool "description"
  let description ← strOf description
  let provenance ← asMapping (getOr tool "provenance" (.dict []))
  let roles ← tupleOf (getOr access "allowed_roles" (.list []))
  return ⟨entry.1,.str "included",description,getOr provenance "description_origin" (.str "source"),
    getOr policy "effect_class" (.str "read"),(getOr policy "requires_confirmation" (.bool false)).truthy,
    getOr access "access_mode" (.str "public"),roles⟩

def buildInitialReview (analysis : Dict) : Except PyExc ReviewState := do
  let entries ← analyzedOperations analysis
  let operations ← each initialEntry entries
  return ⟨operations⟩

end Analysis

/-- The first line of a failed `ToolAccessPolicy`: each bad field counts, or else the one check
of the whole model. -/
def accessPolicyMessage (mode : Value) (roles : List Value) : Str :=
  let badMode := (Read.literal AccessMode.text [.isPublic,.restricted] mode).isNone
  let badRoles := roles.filter (fun role => match role with | .str s => !resourceKey s | _ => true)
  let count := (if badMode then 1 else 0) + badRoles.length
  if count ≤ 1 then "1 validation error for ToolAccessPolicy"
  else Decimal.natural count ++ Str.lit " validation errors for ToolAccessPolicy"

def describe (r : OperationReview) (update : ReviewUpdate) : Except PyExc OperationReview :=
  match update.description with
  | some given => do
    let text := Str.strip given
    refuse text.isEmpty (invalidRequest "a description may not be empty" "/description")
    refuse (decide (maxDescription < text.length))
      (invalidRequest "a description may not exceed 1024 characters" "/description")
    let origin := match update.descriptionOrigin with | some (c::rest) => c::rest | _ => Str.lit "human"
    return { r with description := text, descriptionOrigin := .str origin }
  | none =>
    match update.descriptionOrigin with
    | some origin => .ok { r with descriptionOrigin := .str origin }
    | none => .ok r

/-- The access part of `apply_update`, checked by building the contract model. -/
def regulate (existing r : OperationReview) (update : ReviewUpdate) : Except PyExc OperationReview :=
  if update.accessMode.isSome || update.allowedRoles.isSome then
    let mode := (update.accessMode.map Value.str).getD existing.accessMode
    let roles := (update.allowedRoles.map (List.map Value.str)).getD existing.allowedRoles
    match accessPolicyOf mode roles with
    | .ok policy => .ok { r with
        accessMode := .str policy.accessMode.text
        allowedRoles := policy.allowedRoles.map .str }
    | .error _ => .error (invalidRequest (accessPolicyMessage mode roles) "/access")
  else .ok r

def applyUpdate (state : ReviewState) (update : ReviewUpdate) : Except PyExc ReviewState :=
  match state.get update.operationKey with
  | none => .error (invalidRequest "the draft has no reviewable operation with that key" "/operation_key")
  | some existing => do
    refuse (update.selection.any (fun s => !([Str.lit "included",Str.lit "excluded"].contains s)))
      (invalidRequest "selection must be 'included' or 'excluded'" "/selection")
    let selected := { existing with selection := (update.selection.map Value.str).getD existing.selection }
    let described ← describe selected update
    refuse (update.effectClass.any (fun s => !(EffectClass.all.map EffectClass.text).contains s))
      (invalidRequest "effect_class is not a supported value" "/effect_class")
    let classified := { described with
      effectClass := (update.effectClass.map Value.str).getD described.effectClass
      requiresConfirmation := update.requiresConfirmation.getD described.requiresConfirmation }
    let updated ← regulate existing classified update
    return ⟨state.operations.map (fun entry => if entry.operationKey = update.operationKey then updated else entry)⟩

def entryIssues (entry : OperationReview) : List Str :=
  (if Value.pyEq entry.descriptionOrigin (.str "generated") then
    [Str.lit "publication.description_placeholder:" ++ entry.operationKey] else []) ++
  (if Value.pyEq entry.accessMode (.str "restricted") && entry.allowedRoles.isEmpty then
    [Str.lit "publication.restricted_without_roles:" ++ entry.operationKey] else [])

def missingText (s : Option Str) : Bool := s.all List.isEmpty

/-- `review_readiness`: the draft is ready when there is no issue. -/
def reviewReadiness [Unicode] (analysis : Dict) (state : ReviewState) (baseUrl : Option Str) :
    Except PyExc (List Str) := do
  let analyzed ← analyzedOperations analysis
  let analyzedKeys := analyzed.map (·.1)
  let reviewedKeys := state.operations.map OperationReview.operationKey
  let inSync := reviewedKeys.all analyzedKeys.contains && analyzedKeys.all reviewedKeys.contains
  return (if missingText baseUrl then [Str.lit "publication.base_url_missing"] else []) ++
    (if state.included.isEmpty then [Str.lit "publication.no_operation_selected"] else []) ++
    (if inSync then [] else [Str.lit "publication.review_out_of_sync"]) ++
    state.included.flatMap entryIssues

end ToolLayer.ControlPlane
