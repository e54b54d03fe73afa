import ToolLayer.Contracts.SchemaRules
import ToolLayer.Contracts.ToolModel

/-! The packaged contract schemas, keyword by keyword. The `uri` format names no
checker, so it checks nothing. -/
namespace ToolLayer.Patterns
open Python

/-- `^[A-Za-z_][A-Za-z0-9_.-]*$`. -/
def sourceOperationId (s : Str) : Bool :=
  s.head?.any (fun c : CodePoint => c.isAlpha || c == '_') && s.all (fun c => c.isAlnum || c == '_' || c == '.' || c == '-')

/-- `^[A-Za-z][A-Za-z0-9._:-]*$`. -/
def opaqueReference (s : Str) : Bool :=
  s.head?.any CodePoint.isAlpha && s.all (fun c => c.isAlnum || c == '.' || c == '_' || c == ':' || c == '-')

/-- A semantic version without prerelease. -/
def release (s : Str) : Bool := (semverParts s).any (fun parts => parts.2.2.2.isNone)

/-- What follows the scheme in `^https?://(?![^/?#]*@)[^?#]+$`. -/
def originRest (s : Str) : Bool :=
  !s.isEmpty && s.all (fun c => c != '?' && c != '#') &&
    decide (CodePoint.ofChar '@' ∉ s.takeWhile (fun c : CodePoint => c != '/'))

def baseUrl (s : Str) : Bool := tagged "http://" originRest s || tagged "https://" originRest s

end ToolLayer.Patterns

namespace ToolLayer.Schemas
open Python Kit Rule

def text (low high : Nat) : Rule := all [type [.string],minLength low,maxLength high]

def texts (values : List Str) : Rule := all [type [.string],enum (values.map .str)]

def unique (high : Nat) (each : Rule) : Rule := all [type [.array],maxItems high,uniqueItems,items each]

def toolName : Rule := all [type [.string],minLength 1,maxLength 64,pattern Patterns.toolName]

def key : Rule := all [type [.string],minLength 1,maxLength 64,pattern Patterns.key]

def jsonPointer : Rule := all [type [.string],pattern Patterns.jsonPointer]

def toolInputSchema : Rule :=
  all [type [.object],required ["$schema","type","properties","required","additionalProperties"],
    properties [("$schema",const (.str ToolDefinition.dialect)),("type",const (.str "object")),
      ("properties",type [.object]),
      ("required",all [type [.array],items (type [.string]),uniqueItems]),
      ("additionalProperties",const (.bool false))]]

def argumentBinding : Rule :=
  object [("argument_pointer",jsonPointer),("target",texts ["path","query","header","body"]),
    ("target_name",text 1 256)]

def toolOperation : Rule :=
  object [("protocol",const (.str "http")),("method",texts ["GET","POST","PUT","PATCH","DELETE"]),
    ("path_template",all [text 1 2048,pattern (Patterns.pathTemplate CodePoint.isSpace)]),
    ("bindings",unique 128 argumentBinding),
    ("request_body_media_type",all [type [.string,.null],enum [.str "application/json",.null]])]

def toolAccessPolicy : Rule :=
  all [object [("access_mode",texts ["public","restricted"]),("allowed_roles",unique 32 key)],
    ifThenElse (all [properties [("access_mode",const (.str "restricted"))],required ["access_mode"]])
      (properties [("allowed_roles",minItems 1)]) (properties [("allowed_roles",maxItems 0)])]

def toolPolicy : Rule :=
  object [("effect_class",texts ["read","write","destructive"]),("requires_confirmation",type [.boolean]),
    ("access",toolAccessPolicy)]

def toolProvenance : Rule :=
  object [("source_operation_id",all [type [.string,.null],minLength 1,maxLength 256,pattern Patterns.sourceOperationId]),
    ("source_path",text 1 2048),("source_method",texts ["get","post","put","patch","delete"]),
    ("tags",unique 32 (text 1 64)),("deprecated",type [.boolean]),
    ("description_origin",texts ["source","generated","assisted","human"])]

def toolDefinition : Rule :=
  object [("tool_name",toolName),("display_name",text 1 128),("description",text 1 1024),
    ("input_schema",toolInputSchema),("operation",toolOperation),("policy",toolPolicy),
    ("provenance",toolProvenance)]

def semanticVersion : Rule := all [type [.string],maxLength 64,pattern Patterns.semver]

def digest : Rule := all [type [.string],pattern Patterns.digest]

def opaqueReference : Rule := all [text 1 256,pattern Patterns.opaqueReference]

def runtimeBinding : Rule :=
  object [("protocol",const (.str "http")),
    ("base_url",all [type [.string],maxLength 2048,pattern Patterns.baseUrl]),
    ("auth_profile_ref",oneOf [opaqueReference,type [.null]])]

def sourceProvenance : Rule :=
  object [("format",texts ["openapi"]),("spec_version",text 1 16),("document_filename",text 1 256),
    ("document_digest",digest),("byte_length",all [type [.integer],minimum 1])]

variable (engine : SchemaEngine)

def auditTimestamps : Rule :=
  object [("created_at",all [type [.string],format engine.dateTime]),
    ("updated_at",all [type [.string],format engine.dateTime]),
    ("published_at",all [type [.string,.null],format engine.dateTime])]

def connectorDefinition : Rule :=
  object [("contract_version",semanticVersion),("connector_key",key),("display_name",text 1 128),
    ("summary",text 1 1024),("version",semanticVersion),
    ("lifecycle_state",texts ["draft","published","disabled"]),("runtime",runtimeBinding),
    ("source",sourceProvenance),
    ("tools",all [type [.array],minItems 1,maxItems 256,uniqueItems,items toolDefinition]),
    ("labels",unique 32 (text 1 64)),("audit",auditTimestamps engine)]

def snapshotSignature : Rule :=
  object [("algorithm",const (.str "ed25519")),
    ("key_id",all [text 2 64,pattern Patterns.keyId]),
    ("value",all [type [.string],pattern Patterns.signatureValue])]

def snapshotMembers : List (Str × Rule) :=
  [("contract_version",all [type [.string],pattern Patterns.release]),
    ("snapshot_id",all [type [.string],pattern Patterns.snapshotId]),("deployment_key",key),
    ("revision",all [type [.integer],minimum 1]),
    ("created_at",all [type [.string],format engine.dateTime]),("snapshot_digest",digest),
    ("signature",snapshotSignature),
    ("connectors",all [type [.array],minItems 0,maxItems 64,items (connectorDefinition engine)])]

/-- All of the members but the signature are required. -/
def deploymentSnapshot : Rule :=
  all [type [.object],closed ((snapshotMembers engine).map (·.1)),
    required ["contract_version","snapshot_id","deployment_key","revision","created_at","snapshot_digest","connectors"],
    properties (snapshotMembers engine)]

end ToolLayer.Schemas
