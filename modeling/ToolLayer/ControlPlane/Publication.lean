import ToolLayer.Contracts.CanonicalJson
import ToolLayer.ControlPlane.Review
import ToolLayer.OpenApi.Analyzer
import ToolLayer.Python.Timestamp

/-! The stored form of an analysis, and the connector document a reviewed draft
stands for. -/
namespace ToolLayer.ControlPlane
open Python Kit Kit.Result OpenApi

/-- `Diagnostic.to_dict`. -/
def diagnosticDict (d : Diagnostic) : Value :=
  .dict [("code",.str d.code),("message",.str d.message),("pointer",.str d.pointer),
    ("severity",.str (if d.severity = .error then "error" else "warning")),
    ("operation_key",textOrNull d.operationKey)]

section Serialization

variable [Pydantic]

def dumpTool : Option ToolDefinition → Except PyExc Value
  | some tool => tool.dump
  | none => .ok .null

def serializeOperation (operation : AnalyzedOperation) : Except PyExc Value := do
  let tool ← dumpTool operation.tool
  return .dict [("key",.str operation.key),("path",.str operation.path),("method",.str operation.method.lower),
    ("pointer",.str operation.pointer),("source_operation",.dict operation.sourceOperation),("tool",tool),
    ("diagnostics",.list (operation.diagnostics.map diagnosticDict))]

def serializeAnalysis (result : AnalysisResult) : Except PyExc Dict := do
  let operations ← each serializeOperation result.operations
  return [("analyzer_version",.str result.analyzerVersion),("spec_version",.str result.specVersion),
    ("api_title",.str result.apiTitle),("api_summary",.str result.apiSummary),
    ("base_url",textOrNull result.baseUrl),("diagnostics",.list (result.diagnostics.map diagnosticDict)),
    ("operations",.list operations)]

end Serialization

/-- The error and, as details, the issues its handler reports. -/
def notReadyForPublication (issues : List Str) : PyExc :=
  toolLayerError .notReadyForPublication "the reviewed draft is not ready for publication" none
    (issues.map (fun issue => ⟨"publication.blocked",issue,none,.error⟩))

structure BuiltConnector where
  document : Dict
  digest : Str
  toolCount : Nat

/-- `tool["policy"]` from a review entry. -/
def reviewedPolicy (entry : OperationReview) (access : ToolAccessPolicy) : Value :=
  .dict [("effect_class",entry.effectClass),("requires_confirmation",.bool entry.requiresConfirmation),
    ("access",access.dump)]

/-- A copy of an analyzed tool with the reviewer's decisions in it. -/
def reviewedTool (analyzed : List (Str × Value)) (entry : OperationReview) : Except PyExc Value :=
  match Assoc.get entry.operationKey analyzed with
  | none => .error (notReadyForPublication ["publication.review_out_of_sync"])
  | some tool => do
    let tool ← asDict tool
    let access ← entry.accessPolicy
    let provenance ← item tool "provenance"
    let provenance ← asDict provenance
    return .dict (Dict.set (Dict.set (Dict.set tool "description" (.str entry.description))
      "policy" (reviewedPolicy entry access))
      "provenance" (.dict (Dict.set provenance "description_origin" entry.descriptionOrigin)))

def toolNames (tools : List Value) : Except PyExc (List Value) :=
  each (fun tool => do
    let members ← asDict tool
    item members "tool_name") tools

def repeats : List Value → Bool
  | [] => false
  | v::rest => v.isIn rest || repeats rest

/-- What publication reads of a draft, its connector and the request. -/
structure Draft where
  connectorKey : Str
  displayName : Str
  summary : Str
  version : Str
  analysis : Dict
  review : ReviewState
  baseUrl : Option Str
  authProfileRef : Option Str
  sourceFilename : Str
  sourceDigest : Str
  sourceByteLength : Nat
  specVersion : Str
  createdAt : Timestamp
  publishedAt : Timestamp

/-- The document with its labels left empty, as the service calls it. -/
def connectorDocument (d : Draft) (baseUrl : Str) (tools : List Value) : Dict :=
  [("contract_version",.str contractVersion),("connector_key",.str d.connectorKey),
    ("display_name",.str d.displayName),("summary",.str d.summary),("version",.str d.version),
    ("lifecycle_state",.str "published"),
    ("runtime",.dict [("protocol",.str "http"),("base_url",.str baseUrl),
      ("auth_profile_ref",textOrNull d.authProfileRef)]),
    ("source",.dict [("format",.str "openapi"),("spec_version",.str d.specVersion),
      ("document_filename",.str d.sourceFilename),("document_digest",.str d.sourceDigest),
      ("byte_length",.int d.sourceByteLength)]),
    ("tools",.list tools),("labels",.list []),
    ("audit",.dict [("created_at",.str d.createdAt.rfc3339),("updated_at",.str d.publishedAt.rfc3339),
      ("published_at",.str d.publishedAt.rfc3339)])]

variable [Unicode] (engine : SchemaEngine)

def buildConnectorDocument (d : Draft) : Except PyExc BuiltConnector := do
  let issues ← reviewReadiness d.analysis d.review d.baseUrl
  refuse (!issues.isEmpty) (notReadyForPublication issues)
  match d.baseUrl with
  | none => throw .assertionError
  | some baseUrl => do
    let entries ← analyzedOperations d.analysis
    let analyzed := entries.foldl (fun found entry => Assoc.set entry.1 entry.2 found) []
    let tools ← each (reviewedTool analyzed) d.review.included
    refuse tools.isEmpty (notReadyForPublication ["publication.no_operation_selected"])
    let names ← toolNames tools
    refuse (repeats names) (notReadyForPublication ["publication.tool_name_collision"])
    let document := connectorDocument d baseUrl tools
    validateConnectorDefinition engine (.dict document)
    let digest ← contentDigest document []
    return ⟨document,digest,tools.length⟩

end ToolLayer.ControlPlane
