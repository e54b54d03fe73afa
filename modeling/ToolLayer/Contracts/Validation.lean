import ToolLayer.Contracts.ContractSchemas
import ToolLayer.Contracts.Version
import ToolLayer.Kit.Result

/-! Validation of contract documents: the schema first, then what a schema cannot say. -/
namespace ToolLayer
open Python Kit Kit.Result

def contractViolation (message pointer : Str) (details : List ErrorDetail := []) : PyExc :=
  toolLayerError .contractViolation message (some pointer) details

/-- `document[key]`. -/
def item (document : Dict) (key : Str) : Except PyExc Value :=
  match Assoc.get key document with
  | some value => .ok value
  | none => .error .keyError

theorem item_eq_ok {document : Dict} {key : Str} {value : Value} :
    item document key = .ok value ↔ Assoc.get key document = some value := by
  unfold item
  cases Assoc.get key document <;> simp

/-- What iterating over a value yields; only lists are iterated over here. -/
def elements : Value → Except PyExc (List Value)
  | .list items => .ok items
  | _ => .error .typeError

def asDict : Value → Except PyExc Dict
  | .dict members => .ok members
  | _ => .error .typeError

/-- `str(v)`. -/
def strOf [Unicode] : Value → Except PyExc Str
  | .str s => .ok s
  | v => v.repr

def requireContractVersion (document : Value) (label : Str) : Except PyExc Dict :=
  match document with
  | .dict members =>
    match requireSupported (Dict.get members "contract_version") with
    | .ok _ => .ok members
    | .error (.own (.incompatibleVersion message)) => .error (contractViolation message "/contract_version")
    | .error e => .error e
  | _ => .error (contractViolation (Str.lit "the " ++ label ++ Str.lit " must be a JSON object") [])

/-- `Draft202012Validator.check_schema` behind `except Exception`. -/
def validateToolInputSchema (engine : SchemaEngine) (document : Value) (pointer : Str) : Except PyExc Unit :=
  match document with
  | .dict schema =>
    refuse (!engine.checkSchema schema) (contractViolation "input_schema is not a valid Draft 2020-12 schema" pointer)
  | _ => .error (contractViolation "input_schema must be an object" pointer)

def toolPointer (index : Nat) (field : Str) : Str :=
  Str.lit "/tools/" ++ Decimal.natural index ++ Str.lit "/" ++ field

def validateTool (engine : SchemaEngine) (seen : List Value) (entry : Value × Nat) : Except PyExc (List Value) := do
  let tool ← asDict entry.1
  let name ← item tool "tool_name"
  refuse (name.isIn seen) (contractViolation "tool names must be unique within a connector version"
    (toolPointer entry.2 "tool_name"))
  let schema ← item tool "input_schema"
  validateToolInputSchema engine schema (toolPointer entry.2 "input_schema")
  return seen ++ [name]

def connectorPointer (index : Nat) (field : Str) : Str :=
  Str.lit "/connectors/" ++ Decimal.natural index ++ Str.lit "/" ++ field

variable [Unicode]

/-- `_validate`: at most fifty details. -/
def validateAgainst (rule : Rule) (document : Value) (label : Str) : Except PyExc Unit :=
  match sortErrors (rule document) with
  | [] => .ok ()
  | first::rest => .error (contractViolation (Str.lit "the " ++ label ++ Str.lit " does not satisfy its contract")
      (pointerOf first.path) (((first::rest).take 50).map (errorDetail "document")))

theorem validateAgainst_eq_ok {rule : Rule} {document : Value} {label : Str} :
    validateAgainst rule document label = .ok () ↔ rule document = [] := by
  rw [← sortErrors_eq_nil,validateAgainst]
  cases sortErrors (rule document) <;> simp

variable (engine : SchemaEngine)

def validateConnectorDefinition (document : Value) : Except PyExc Unit := do
  let members ← requireContractVersion document "connector definition"
  validateAgainst (Schemas.connectorDefinition engine) document "connector definition"
  let tools ← item members "tools"
  let tools ← elements tools
  let _ ← loop (validateTool engine) [] tools.zipIdx
  return ()

def validateConnector (seen : List Value) (entry : Value × Nat) : Except PyExc (List Value) := do
  let connector ← asDict entry.1
  let key ← item connector "connector_key"
  refuse (key.isIn seen) (contractViolation "a snapshot may pin only one version per connector"
    (connectorPointer entry.2 "connector_key"))
  let state ← item connector "lifecycle_state"
  refuse (!Value.pyEq state (.str "published")) (contractViolation
    "a snapshot may contain only published connector versions" (connectorPointer entry.2 "lifecycle_state"))
  validateConnectorDefinition engine entry.1
  return seen ++ [key]

def validateDeploymentSnapshot (document : Value) : Except PyExc Unit := do
  let members ← requireContractVersion document "deployment snapshot"
  validateAgainst (Schemas.deploymentSnapshot engine) document "deployment snapshot"
  let connectors ← item members "connectors"
  let connectors ← elements connectors
  let _ ← loop (validateConnector engine) [] connectors.zipIdx
  return ()

/-- What an accepted connector document is. -/
theorem validateConnectorDefinition_eq_ok {document : Value} :
    validateConnectorDefinition engine document = .ok () ↔
      ∃ members tools seen, requireContractVersion document "connector definition" = .ok members ∧
        Schemas.connectorDefinition engine document = [] ∧
        Assoc.get (Str.lit "tools") members = some (.list tools) ∧
        loop (validateTool engine) [] tools.zipIdx = .ok seen := by
  unfold validateConnectorDefinition
  constructor
  · intro accepted
    obtain ⟨members,versioned,accepted⟩ := bind_eq_ok.mp accepted
    obtain ⟨_,valid,accepted⟩ := bind_eq_ok.mp accepted
    obtain ⟨value,found,accepted⟩ := bind_eq_ok.mp accepted
    obtain ⟨tools,listed,accepted⟩ := bind_eq_ok.mp accepted
    obtain ⟨seen,looped,_⟩ := bind_eq_ok.mp accepted
    have list : value = .list tools := by
      cases value <;> first | (cases listed; rfl) | cases listed
    rw [list] at found
    exact ⟨members,tools,seen,versioned,validateAgainst_eq_ok.mp valid,item_eq_ok.mp found,looped⟩
  · rintro ⟨members,tools,seen,versioned,valid,found,looped⟩
    rw [versioned,ok_bind,validateAgainst_eq_ok.mpr valid,ok_bind,item_eq_ok.mpr found,ok_bind,elements,ok_bind,looped]
    rfl

theorem validateDeploymentSnapshot_eq_ok {document : Value} :
    validateDeploymentSnapshot engine document = .ok () ↔
      ∃ members connectors seen, requireContractVersion document "deployment snapshot" = .ok members ∧
        Schemas.deploymentSnapshot engine document = [] ∧
        Assoc.get (Str.lit "connectors") members = some (.list connectors) ∧
        loop (validateConnector engine) [] connectors.zipIdx = .ok seen := by
  unfold validateDeploymentSnapshot
  constructor
  · intro accepted
    obtain ⟨members,versioned,accepted⟩ := bind_eq_ok.mp accepted
    obtain ⟨_,valid,accepted⟩ := bind_eq_ok.mp accepted
    obtain ⟨value,found,accepted⟩ := bind_eq_ok.mp accepted
    obtain ⟨connectors,listed,accepted⟩ := bind_eq_ok.mp accepted
    obtain ⟨seen,looped,_⟩ := bind_eq_ok.mp accepted
    have list : value = .list connectors := by
      cases value <;> first | (cases listed; rfl) | cases listed
    rw [list] at found
    exact ⟨members,connectors,seen,versioned,validateAgainst_eq_ok.mp valid,item_eq_ok.mp found,looped⟩
  · rintro ⟨members,connectors,seen,versioned,valid,found,looped⟩
    rw [versioned,ok_bind,validateAgainst_eq_ok.mpr valid,ok_bind,item_eq_ok.mpr found,ok_bind,elements,ok_bind,looped]
    rfl

omit [Unicode] in
/-- A document the snapshot schema accepts, member by member. -/
theorem deploymentSnapshot_eq_nil {document : Dict} :
    Schemas.deploymentSnapshot engine (.dict document) = [] ↔
      (∀ m ∈ document, m.1 ∈ (Schemas.snapshotMembers engine).map (·.1)) ∧
      (∀ p ∈ Schemas.snapshotMembers engine, p.1 ≠ Str.lit "signature" →
        ∃ value, Assoc.get p.1 document = some value ∧ p.2 value = []) ∧
      ∀ value, Assoc.get (Str.lit "signature") document = some value → Schemas.snapshotSignature value = [] := by
  have signed : (Str.lit "signature",Schemas.snapshotSignature) ∈ Schemas.snapshotMembers engine := by
    simp [Schemas.snapshotMembers]
  have named : ∀ p ∈ Schemas.snapshotMembers engine, p.1 ≠ Str.lit "signature" →
      p.1 ∈ ([Str.lit "contract_version",Str.lit "snapshot_id",Str.lit "deployment_key",Str.lit "revision",
        Str.lit "created_at",Str.lit "snapshot_digest",Str.lit "connectors"] : List Str) := by
    simp [Schemas.snapshotMembers]
  simp only [Schemas.deploymentSnapshot,Rule.all_cons_eq_nil,Rule.closed_eq_nil,Rule.required_eq_nil,
    Rule.properties_eq_nil]
  constructor
  · rintro ⟨_,extra,present,each,_⟩
    refine ⟨extra,?_,fun value found => each _ signed value found⟩
    intro p member other
    obtain ⟨value,found⟩ := Option.isSome_iff_exists.mp (present _ (named p member other))
    exact ⟨value,found,each p member value found⟩
  · rintro ⟨extra,each,signature⟩
    refine ⟨by simp [Rule.type,Value.isType],extra,?_,?_,by simp [Rule.all]⟩
    · intro name member
      have listed : ∃ p ∈ Schemas.snapshotMembers engine, p.1 ≠ Str.lit "signature" ∧ p.1 = name := by
        revert name
        simp [Schemas.snapshotMembers]
      obtain ⟨p,inside,other,rfl⟩ := listed
      obtain ⟨value,found,_⟩ := each p inside other
      simp [Dict.has,found]
    · intro p member value found
      by_cases same : p.1 = Str.lit "signature"
      · have rule : p.2 = Schemas.snapshotSignature := by
          revert same
          revert p
          simp [Schemas.snapshotMembers]
        rw [same] at found
        rw [rule]
        exact signature value found
      · obtain ⟨other,present,accepted⟩ := each p member same
        rw [found] at present
        cases present
        exact accepted

end ToolLayer
