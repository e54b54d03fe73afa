import ToolLayer.Contracts.Dump
import ToolLayer.Contracts.Signing
import ToolLayer.Contracts.Validation

/-! Loading a snapshot document: shape, version, schema, digest, signature, models, and
the index tools are dispatched by. -/
namespace ToolLayer.Runtime
open Python Kit Kit.Result

inductive VerificationMode where
  | required
  | disabled
  deriving DecidableEq

def snapshotError (message : Str) : PyExc := toolLayerError .snapshotUnavailable message

def snapshotIntegrityError (message : Str) : PyExc := toolLayerError .snapshotIntegrityFailed message

def snapshotSignatureError (message : Str) : PyExc := toolLayerError .snapshotSignatureInvalid message

structure SnapshotVerification where
  mode : VerificationMode := .required
  trustedKeys : TrustedKeyRing := .empty

def SnapshotVerification.enforced (v : SnapshotVerification) : Bool := v.mode == .required

section Check

variable [Unicode] (scheme : Ed25519)

def authenticate (document : Dict) (ring : TrustedKeyRing) : Except PyExc (Option Str) :=
  match verifyDocument scheme document ring with
  | .ok keyId => .ok (some keyId)
  | .error (.own (.signatureVerification message)) => .error (snapshotSignatureError message)
  | .error e => .error e

/-- Without enforcement a signature that is there is verified all the same. -/
def SnapshotVerification.check (v : SnapshotVerification) (document : Dict) : Except PyExc (Option Str) :=
  if v.enforced then authenticate scheme document v.trustedKeys
  else match Dict.get document "signature" with
    | .null => .ok none
    | _ => authenticate scheme document v.trustedKeys

end Check

variable [Pydantic]

/-- One tool and where it is executed. -/
structure BoundTool where
  connectorKey : Str
  connectorVersion : Str
  baseUrl : Str
  tool : ToolDefinition

def BoundTool.toolName (b : BoundTool) : Str := b.tool.toolName

/-- The tools of a snapshot by name; no name is there twice. -/
structure ToolIndex where
  tools : List BoundTool
  distinct : (tools.map BoundTool.toolName).Nodup

def ToolIndex.find (index : ToolIndex) (toolName : Str) : Option BoundTool :=
  index.tools.find? (fun b => b.toolName == toolName)

def indexTool (index : ToolIndex) (b : BoundTool) : Except PyExc ToolIndex :=
  if known : b.toolName ∈ index.tools.map BoundTool.toolName then
    .error (snapshotIntegrityError "the snapshot defines the same tool name in more than one connector")
  else .ok ⟨index.tools ++ [b],by
    rw [List.map_append]
    exact List.nodup_append'.mpr ⟨index.distinct,List.nodup_singleton _,by simpa using known⟩⟩

variable [Unicode]

def bound (connector : ConnectorDefinition) (tool : ToolDefinition) : BoundTool :=
  ⟨connector.connectorKey,connector.version,connector.runtime.baseUrl,tool⟩

/-- `_index`. -/
def indexOf (snapshot : DeploymentSnapshot) : Except PyExc ToolIndex :=
  loop (fun index connector => loop indexTool index (connector.tools.map (bound connector)))
    ⟨[],List.nodup_nil⟩ snapshot.connectors

/-- A verified snapshot; `loadedAt` is in seconds of a monotonic clock. -/
structure LoadedSnapshot where
  snapshot : DeploymentSnapshot
  etag : Option Str
  loadedAt : Rat
  toolsByName : ToolIndex
  signingKeyId : Option Str

def LoadedSnapshot.revision (s : LoadedSnapshot) : Int := s.snapshot.revision

def LoadedSnapshot.snapshotId (s : LoadedSnapshot) : Str := s.snapshot.snapshotId

def LoadedSnapshot.resolve (s : LoadedSnapshot) (toolName : Str) : Except PyExc BoundTool :=
  match s.toolsByName.find toolName with
  | some b => .ok b
  | none => .error (toolLayerError .unknownTool "the requested tool is not present in this deployment snapshot")

def requireSnapshotVersion (document : Dict) : Except PyExc Unit :=
  match requireSupported (Dict.get document "contract_version") with
  | .ok _ => .ok ()
  | .error (.own (.incompatibleVersion message)) =>
    .error (toolLayerError .unsupportedContractVersion message (some "/contract_version"))
  | .error e => .error e

variable (scheme : Ed25519) (engine : SchemaEngine)

def revalidate (connector : ConnectorDefinition) : Except PyExc Unit := do
  let dumped ← connector.dump
  let _ ← ConnectorDefinition.modelValidate dumped
  return ()

/-- Everything about a document but the models: schema, digest and producer. -/
def verifySnapshot (verification : SnapshotVerification) (document : Dict) : Except PyExc (Option Str) := do
  requireSnapshotVersion document
  validateDeploymentSnapshot engine (.dict document)
  let declared ← item document "snapshot_digest"
  let declared ← strOf declared
  let intact ← verifyDigest document (.str declared) snapshotDigestExcluded
  refuse (!intact) (snapshotIntegrityError "the snapshot content does not match the digest it declares")
  verification.check scheme document

def loadSnapshotDocument (verification : SnapshotVerification) (document : Value) (etag : Option Str) (now : Rat) :
    Except PyExc LoadedSnapshot :=
  match document with
  | .dict members => do
    let signingKeyId ← verifySnapshot scheme engine verification members
    let snapshot ← DeploymentSnapshot.modelValidate document
    let _ ← loop (fun _ connector => revalidate connector) () snapshot.connectors
    let index ← indexOf snapshot
    return ⟨snapshot,etag,now,index,signingKeyId⟩
  | _ => .error (snapshotIntegrityError "the snapshot payload is not a JSON object")

variable {scheme engine} {verification : SnapshotVerification} {document : Dict} {keyId : Option Str}

omit [Pydantic] in
theorem authenticate_eq_ok {ring : TrustedKeyRing} : authenticate scheme document ring = .ok keyId ↔
    ∃ name, keyId = some name ∧ verifyDocument scheme document ring = .ok name := by
  unfold authenticate
  split
  next name verified => simp [verified,eq_comm]
  next refused => simp [refused]
  next _ refused => simp [refused]

omit [Pydantic] [Unicode] in
theorem requireSnapshotVersion_eq_ok : requireSnapshotVersion document = .ok () ↔
    ∃ version, requireSupported (Dict.get document "contract_version") = .ok version := by
  unfold requireSnapshotVersion
  split
  next version supported => simp [supported]
  next refused => simp [refused]
  next _ refused => simp [refused]

/-- What a document passed that got as far as the models. -/
structure Verified (scheme : Ed25519) (engine : SchemaEngine) (verification : SnapshotVerification) (document : Dict)
    (keyId : Option Str) : Prop where
  supported : requireSnapshotVersion document = .ok ()
  valid : validateDeploymentSnapshot engine (.dict document) = .ok ()
  exists_digest : ∃ value declared, Assoc.get (Str.lit "snapshot_digest") document = some value ∧
    strOf value = .ok declared ∧ Str.startsWith declared digestPrefix = true ∧
    contentDigest document snapshotDigestExcluded = .ok declared
  authentic : verification.check scheme document = .ok keyId

omit [Pydantic] in
theorem Verified.digest (verified : Verified scheme engine verification document keyId) :
    ∃ declared, Assoc.get (Str.lit "snapshot_digest") document = some (.str declared) ∧
      contentDigest document snapshotDigestExcluded = .ok declared := by
  obtain ⟨members,_,_,_,valid,_⟩ := (validateDeploymentSnapshot_eq_ok engine).mp verified.valid
  obtain ⟨_,each,_⟩ := (deploymentSnapshot_eq_nil engine).mp valid
  obtain ⟨value,present,accepted⟩ := each (Str.lit "snapshot_digest",Schemas.digest) (by simp [Schemas.snapshotMembers])
    (by simp)
  have typed : Rule.type [.string] value = [] := by
    rw [Schemas.digest,Rule.all_cons_eq_nil] at accepted
    exact accepted.1
  obtain ⟨s,rfl⟩ := Rule.type_string_eq_nil.mp typed
  obtain ⟨other,declared,found,text,_,digest⟩ := verified.exists_digest
  rw [present] at found
  cases found
  cases text
  exact ⟨s,present,digest⟩

omit [Pydantic] in
theorem verifySnapshot_eq_ok : verifySnapshot scheme engine verification document = .ok keyId ↔
    Verified scheme engine verification document keyId := by
  constructor
  · intro done
    obtain ⟨_,supported,done⟩ := bind_eq_ok.mp done
    obtain ⟨_,valid,done⟩ := bind_eq_ok.mp done
    obtain ⟨value,present,done⟩ := bind_eq_ok.mp done
    obtain ⟨declared,text,done⟩ := bind_eq_ok.mp done
    obtain ⟨intact,matched,done⟩ := bind_eq_ok.mp done
    obtain ⟨same,done⟩ := refuse_bind_eq_ok.mp done
    have true_ : intact = true := by simpa using same
    obtain ⟨tagged,digest⟩ := verifyDigest_eq_true.mp (true_ ▸ matched)
    exact ⟨supported,valid,⟨value,declared,item_eq_ok.mp present,text,tagged,digest⟩,done⟩
  · rintro ⟨supported,valid,⟨value,declared,present,text,tagged,digest⟩,authentic⟩
    rw [verifySnapshot,supported,ok_bind,valid,ok_bind,item_eq_ok.mpr present,ok_bind,text,ok_bind,
      verifyDigest_eq_true.mpr ⟨tagged,digest⟩,ok_bind]
    simpa using authentic

/-- What a loaded document passed, and what it became. -/
structure Loaded (scheme : Ed25519) (engine : SchemaEngine) (verification : SnapshotVerification) (document : Dict)
    (loaded : LoadedSnapshot) : Prop where
  verified : Verified scheme engine verification document loaded.signingKeyId
  validated : DeploymentSnapshot.modelValidate (.dict document) = .ok loaded.snapshot
  revalidated : ∀ connector ∈ loaded.snapshot.connectors, revalidate connector = .ok ()
  indexed : indexOf loaded.snapshot = .ok loaded.toolsByName

theorem loadSnapshotDocument_eq_ok {value : Value} {etag : Option Str} {now : Rat} {loaded : LoadedSnapshot} :
    loadSnapshotDocument scheme engine verification value etag now = .ok loaded ↔
      ∃ document, value = .dict document ∧ Loaded scheme engine verification document loaded ∧
        loaded.etag = etag ∧ loaded.loadedAt = now := by
  constructor
  · intro done
    unfold loadSnapshotDocument at done
    split at done
    next members =>
      obtain ⟨keyId,verified,done⟩ := bind_eq_ok.mp done
      obtain ⟨snapshot,validated,done⟩ := bind_eq_ok.mp done
      obtain ⟨_,looped,done⟩ := bind_eq_ok.mp done
      obtain ⟨index,indexed,done⟩ := bind_eq_ok.mp done
      cases done
      exact ⟨members,rfl,⟨verifySnapshot_eq_ok.mp verified,validated,loop_unit_eq_ok.mp looped,indexed⟩,rfl,rfl⟩
    next => cases done
  · rintro ⟨members,rfl,⟨verified,validated,revalidated,indexed⟩,rfl,rfl⟩
    rw [loadSnapshotDocument,verifySnapshot_eq_ok.mpr verified,ok_bind,validated,ok_bind,
      loop_unit_eq_ok.mpr revalidated,ok_bind,indexed]
    rfl

end ToolLayer.Runtime
