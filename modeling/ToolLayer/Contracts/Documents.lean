import ToolLayer.Contracts.ToolModel
import ToolLayer.Kit.Result
import ToolLayer.Python.UrlSplit

/-! The connector and snapshot models, and `model_validate` of all contract models:
what each makes of a parsed document. -/
namespace ToolLayer
open Python Kit Kit.Result

namespace Read

variable {M A : Type}

/-- A dictionary with no member outside the model's fields. -/
def members (fields : List Str) : Value → Option Dict
  | .dict d => if d.all (fun m => fields.contains m.1) then some d else none
  | _ => none

/-- A field without default. -/
def field (d : Dict) (name : Str) (read : Value → Option M) : Option M := (Assoc.get name d).bind read

def text : Value → Option Str
  | .str s => some s
  | _ => none

def nullable (read : Value → Option M) : Value → Option (Option M)
  | .null => some none
  | v => (read v).map some

def tuple (read : Value → Option M) : Value → Option (List M)
  | .list items => items.mapM read
  | _ => none

def literal (spelling : A → Str) (values : List A) : Value → Option A
  | .str s => values.find? (fun a => spelling a == s)
  | _ => none

def dictionary : Value → Option Dict
  | .dict d => some d
  | _ => none

end Read

inductive LifecycleState where
  | draft
  | published
  | disabled
  deriving DecidableEq

def LifecycleState.text : LifecycleState → Str
  | .draft => "draft"
  | .published => "published"
  | .disabled => "disabled"

def HttpMethod.all : List HttpMethod := [.get,.post,.put,.patch,.delete]

namespace ArgumentBinding

def fields : List Str := ["argument_pointer","target","target_name"]

def read (v : Value) : Option ArgumentBinding := do
  let d ← Read.members fields v
  let pointer ← Read.field d "argument_pointer" Read.text
  let target ← Read.field d "target" (Read.literal BindingTarget.text [.path,.query,.header,.body])
  let name ← Read.field d "target_name" Read.text
  (make pointer target name).toOption

end ArgumentBinding

namespace ToolOperation

def fields : List Str := ["protocol","method","path_template","bindings","request_body_media_type"]

def read (v : Value) : Option ToolOperation := do
  let d ← Read.members fields v
  let _ ← Read.field d "protocol" (Read.literal id ["http"])
  let method ← Read.field d "method" (Read.literal HttpMethod.upper HttpMethod.all)
  let path ← Read.field d "path_template" Read.text
  let bindings ← Read.field d "bindings" (Read.tuple ArgumentBinding.read)
  let media ← Read.field d "request_body_media_type" (Read.nullable (Read.literal id ["application/json"]))
  (make method path bindings media.isSome).toOption

end ToolOperation

namespace ToolAccessPolicy

def fields : List Str := ["access_mode","allowed_roles"]

def read (v : Value) : Option ToolAccessPolicy := do
  let d ← Read.members fields v
  let mode ← Read.field d "access_mode" (Read.literal AccessMode.text [.isPublic,.restricted])
  let roles ← Read.field d "allowed_roles" (Read.tuple Read.text)
  (make mode roles).toOption

end ToolAccessPolicy

def EffectClass.all : List EffectClass := [.read,.write,.destructive]

def DescriptionOrigin.all : List DescriptionOrigin := [.source,.generated,.assisted,.human]

/-- `_tool_names_are_unique` and `_one_version_per_connector`: no name comes twice. -/
def distinctNames (names : List Str) : Prop := names.Nodup

instance (names : List Str) : Decidable (distinctNames names) := inferInstanceAs (Decidable names.Nodup)

/-- `_reviewed_origin`: no other exception than `ValueError` comes out of `urlsplit`. -/
def reviewedOrigin [Unicode] (value : Str) : Bool :=
  let parsed := Url.components value
  Url.splittable value && (parsed.scheme == Str.lit "http" || parsed.scheme == Str.lit "https") &&
    !parsed.netloc.isEmpty && decide (CodePoint.ofChar '@' ∉ parsed.netloc) &&
    parsed.query.isEmpty && parsed.fragment.isEmpty

namespace RuntimeBinding

def Accepts [Unicode] (baseUrl : Str) (authProfileRef : Option Str) : Prop :=
  boundedText 0 2048 baseUrl = true ∧ reviewedOrigin baseUrl = true ∧
    authProfileRef.all (boundedText 0 256) = true

instance [Unicode] (baseUrl : Str) (authProfileRef : Option Str) : Decidable (Accepts baseUrl authProfileRef) :=
  inferInstanceAs (Decidable (_ ∧ _))

def fields : List Str := ["protocol","base_url","auth_profile_ref"]

end RuntimeBinding

/-- Where the tools of a connector are executed. -/
structure RuntimeBinding [Unicode] where
  baseUrl : Str
  authProfileRef : Option Str
  accepted : RuntimeBinding.Accepts baseUrl authProfileRef

def RuntimeBinding.read [Unicode] (v : Value) : Option RuntimeBinding := do
  let d ← Read.members fields v
  let _ ← Read.field d "protocol" (Read.literal id ["http"])
  let baseUrl ← Read.field d "base_url" Read.text
  let profile ← Read.field d "auth_profile_ref" (Read.nullable Read.text)
  (validated (Accepts baseUrl profile) (fun accepted => ⟨baseUrl,profile,accepted⟩)).toOption

/-- `Digest`. -/
def isDigest (s : Str) : Bool := Pydantic.constrainedText s && Patterns.digest s

namespace SourceProvenance

def Accepts (specVersion filename digest : Str) (byteLength : Int) : Prop :=
  boundedText 1 16 specVersion = true ∧ boundedText 1 256 filename = true ∧ isDigest digest = true ∧ 1 ≤ byteLength

instance (specVersion filename digest : Str) (byteLength : Int) :
    Decidable (Accepts specVersion filename digest byteLength) :=
  inferInstanceAs (Decidable (_ ∧ _))

def fields : List Str := ["format","spec_version","document_filename","document_digest","byte_length"]

end SourceProvenance

structure SourceProvenance where
  specVersion : Str
  documentFilename : Str
  documentDigest : Str
  byteLength : Int
  accepted : SourceProvenance.Accepts specVersion documentFilename documentDigest byteLength

namespace SnapshotSignature

def Accepts (keyId value : Str) : Prop :=
  boundedText 2 64 keyId = true ∧ Patterns.keyId keyId = true ∧
    Pydantic.constrainedText value = true ∧ Patterns.signatureValue value = true

instance (keyId value : Str) : Decidable (Accepts keyId value) := inferInstanceAs (Decidable (_ ∧ _))

def fields : List Str := ["algorithm","key_id","value"]

end SnapshotSignature

/-- A detached producer signature; its algorithm can only be `ed25519`. -/
structure SnapshotSignature where
  keyId : Str
  value : Str
  accepted : SnapshotSignature.Accepts keyId value

def SnapshotSignature.read (v : Value) : Option SnapshotSignature := do
  let d ← Read.members fields v
  let _ ← Read.field d "algorithm" (Read.literal id ["ed25519"])
  let keyId ← Read.field d "key_id" Read.text
  let value ← Read.field d "value" Read.text
  (validated (Accepts keyId value) (fun accepted => ⟨keyId,value,accepted⟩)).toOption

variable [Pydantic]

def ToolPolicy.read (v : Value) : Option ToolPolicy := do
  let d ← Read.members ["effect_class","requires_confirmation","access"] v
  let effect ← Read.field d "effect_class" (Read.literal EffectClass.text EffectClass.all)
  let confirmation ← Read.field d "requires_confirmation" Pydantic.laxBool
  let access ← Read.field d "access" ToolAccessPolicy.read
  return ⟨effect,confirmation,access⟩

namespace ToolProvenance

def fields : List Str :=
  ["source_operation_id","source_path","source_method","tags","deprecated","description_origin"]

def read (v : Value) : Option ToolProvenance := do
  let d ← Read.members fields v
  let operationId ← Read.field d "source_operation_id" (Read.nullable Read.text)
  let path ← Read.field d "source_path" Read.text
  let method ← Read.field d "source_method" (Read.literal HttpMethod.lower HttpMethod.all)
  let tags ← Read.field d "tags" (Read.tuple Read.text)
  let deprecated ← Read.field d "deprecated" Pydantic.laxBool
  let origin ← Read.field d "description_origin" (Read.literal DescriptionOrigin.text DescriptionOrigin.all)
  (make operationId path method tags deprecated origin).toOption

end ToolProvenance

namespace ToolDefinition

def fields : List Str :=
  ["tool_name","display_name","description","input_schema","operation","policy","provenance"]

def read (v : Value) : Option ToolDefinition := do
  let d ← Read.members fields v
  let toolName ← Read.field d "tool_name" Read.text
  let displayName ← Read.field d "display_name" Read.text
  let description ← Read.field d "description" Read.text
  let schema ← Read.field d "input_schema" Read.dictionary
  let operation ← Read.field d "operation" ToolOperation.read
  let policy ← Read.field d "policy" ToolPolicy.read
  let provenance ← Read.field d "provenance" ToolProvenance.read
  (make toolName displayName description schema operation policy provenance).toOption

end ToolDefinition

def SourceProvenance.read (v : Value) : Option SourceProvenance := do
  let d ← Read.members fields v
  let _ ← Read.field d "format" (Read.literal id ["openapi"])
  let specVersion ← Read.field d "spec_version" Read.text
  let filename ← Read.field d "document_filename" Read.text
  let digest ← Read.field d "document_digest" Read.text
  let byteLength ← Read.field d "byte_length" Pydantic.laxInt
  (validated (Accepts specVersion filename digest byteLength)
    (fun accepted => ⟨specVersion,filename,digest,byteLength,accepted⟩)).toOption

namespace AuditTimestamps

def Accepts (createdAt updatedAt : Str) (publishedAt : Option Str) : Prop :=
  Pydantic.plainText createdAt = true ∧ Pydantic.plainText updatedAt = true ∧
    publishedAt.all Pydantic.plainText = true

instance (createdAt updatedAt : Str) (publishedAt : Option Str) : Decidable (Accepts createdAt updatedAt publishedAt) :=
  inferInstanceAs (Decidable (_ ∧ _))

def fields : List Str := ["created_at","updated_at","published_at"]

end AuditTimestamps

structure AuditTimestamps where
  createdAt : Str
  updatedAt : Str
  publishedAt : Option Str
  accepted : AuditTimestamps.Accepts createdAt updatedAt publishedAt

def AuditTimestamps.read (v : Value) : Option AuditTimestamps := do
  let d ← Read.members fields v
  let created ← Read.field d "created_at" Read.text
  let updated ← Read.field d "updated_at" Read.text
  let published ← Read.field d "published_at" (Read.nullable Read.text)
  (validated (Accepts created updated published) (fun accepted => ⟨created,updated,published,accepted⟩)).toOption

namespace ConnectorDefinition

def Accepts (contractVersion connectorKey displayName summary version : Str) (tools : List ToolDefinition)
    (labels : List Str) : Prop :=
  semanticVersion contractVersion = true ∧ resourceKey connectorKey = true ∧
  boundedText 1 128 displayName = true ∧ boundedText 1 1024 summary = true ∧ semanticVersion version = true ∧
  1 ≤ tools.length ∧ labels.all Pydantic.plainText = true ∧ distinctNames (tools.map ToolDefinition.toolName)

instance (contractVersion connectorKey displayName summary version : Str) (tools : List ToolDefinition)
    (labels : List Str) : Decidable (Accepts contractVersion connectorKey displayName summary version tools labels) :=
  inferInstanceAs (Decidable (_ ∧ _))

def fields : List Str :=
  ["contract_version","connector_key","display_name","summary","version","lifecycle_state","runtime","source",
    "tools","labels","audit"]

end ConnectorDefinition

variable [Unicode]

/-- One versioned bundle of tools. -/
structure ConnectorDefinition where
  contractVersion : Str
  connectorKey : Str
  displayName : Str
  summary : Str
  version : Str
  lifecycleState : LifecycleState
  runtime : RuntimeBinding
  source : SourceProvenance
  tools : List ToolDefinition
  labels : List Str
  audit : AuditTimestamps
  accepted : ConnectorDefinition.Accepts contractVersion connectorKey displayName summary version tools labels

def ConnectorDefinition.read (v : Value) : Option ConnectorDefinition := do
  let d ← Read.members fields v
  let contractVersion ← Read.field d "contract_version" Read.text
  let connectorKey ← Read.field d "connector_key" Read.text
  let displayName ← Read.field d "display_name" Read.text
  let summary ← Read.field d "summary" Read.text
  let version ← Read.field d "version" Read.text
  let lifecycleState ← Read.field d "lifecycle_state"
    (Read.literal LifecycleState.text [.draft,.published,.disabled])
  let runtime ← Read.field d "runtime" RuntimeBinding.read
  let source ← Read.field d "source" SourceProvenance.read
  let tools ← Read.field d "tools" (Read.tuple ToolDefinition.read)
  let labels ← Read.field d "labels" (Read.tuple Read.text)
  let audit ← Read.field d "audit" AuditTimestamps.read
  (validated (Accepts contractVersion connectorKey displayName summary version tools labels) (fun accepted =>
    ⟨contractVersion,connectorKey,displayName,summary,version,lifecycleState,runtime,source,tools,labels,audit,
      accepted⟩)).toOption

def ConnectorDefinition.modelValidate (v : Value) : Except PyExc ConnectorDefinition :=
  match ConnectorDefinition.read v with
  | some m => .ok m
  | none => .error .validationError

def ConnectorDefinition.tool (connector : ConnectorDefinition) (toolName : Str) : Option ToolDefinition :=
  connector.tools.find? (fun candidate => candidate.toolName == toolName)

namespace DeploymentSnapshot

def Accepts (contractVersion snapshotId deploymentKey : Str) (revision : Int) (createdAt digest : Str)
    (connectors : List ConnectorDefinition) : Prop :=
  semanticVersion contractVersion = true ∧
  (Pydantic.constrainedText snapshotId && Patterns.snapshotId snapshotId) = true ∧
  resourceKey deploymentKey = true ∧ 1 ≤ revision ∧ Pydantic.plainText createdAt = true ∧ isDigest digest = true ∧
  distinctNames (connectors.map ConnectorDefinition.connectorKey) ∧
  ∀ connector ∈ connectors, connector.lifecycleState = .published

instance (contractVersion snapshotId deploymentKey : Str) (revision : Int) (createdAt digest : Str)
    (connectors : List ConnectorDefinition) :
    Decidable (Accepts contractVersion snapshotId deploymentKey revision createdAt digest connectors) :=
  inferInstanceAs (Decidable (_ ∧ _))

def fields : List Str :=
  ["contract_version","snapshot_id","deployment_key","revision","created_at","snapshot_digest","connectors",
    "signature"]

end DeploymentSnapshot

/-- The connector versions one deployment may serve. -/
structure DeploymentSnapshot where
  contractVersion : Str
  snapshotId : Str
  deploymentKey : Str
  revision : Int
  createdAt : Str
  snapshotDigest : Str
  connectors : List ConnectorDefinition
  signature : Option SnapshotSignature
  accepted : DeploymentSnapshot.Accepts contractVersion snapshotId deploymentKey revision createdAt snapshotDigest
    connectors

def DeploymentSnapshot.read (v : Value) : Option DeploymentSnapshot := do
  let d ← Read.members fields v
  let contractVersion ← Read.field d "contract_version" Read.text
  let snapshotId ← Read.field d "snapshot_id" Read.text
  let deploymentKey ← Read.field d "deployment_key" Read.text
  let revision ← Read.field d "revision" Pydantic.laxInt
  let createdAt ← Read.field d "created_at" Read.text
  let digest ← Read.field d "snapshot_digest" Read.text
  let connectors ← Read.field d "connectors" (Read.tuple ConnectorDefinition.read)
  -- The only field with a default.
  let signature ← Read.nullable SnapshotSignature.read (Dict.get d "signature")
  (validated (Accepts contractVersion snapshotId deploymentKey revision createdAt digest connectors) (fun accepted =>
    ⟨contractVersion,snapshotId,deploymentKey,revision,createdAt,digest,connectors,signature,accepted⟩)).toOption

def DeploymentSnapshot.modelValidate (v : Value) : Except PyExc DeploymentSnapshot :=
  match DeploymentSnapshot.read v with
  | some m => .ok m
  | none => .error .validationError

end ToolLayer
