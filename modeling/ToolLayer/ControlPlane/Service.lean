import ToolLayer.Contracts.Signing
import ToolLayer.ControlPlane.Database

/-! The use cases of the Control Plane, each one transaction: it gives the database it
commits, or raises and leaves the database as it was. -/
namespace ToolLayer.ControlPlane
open Python Kit Kit.Result OpenApi

def notFound (message : Str) (code : ErrorCode := .notFound) : PyExc := toolLayerError code message

def revisionConflict (message : Str) : PyExc := toolLayerError .revisionConflict message (some "/expected_revision")

/-- Raised by the check and by the unique constraint alike. -/
def versionExists : PyExc :=
  toolLayerError .immutableVersion "that version is already published; publish a new version instead" (some "/version")

/-- One round of `max(published, key=parse_version)`. -/
def higherVersion (best : Str × ContractVersion) (version : Str) : Except PyExc (Str × ContractVersion) := do
  let parsed ← parseVersion (.str version)
  let greater ← tupleGreater parsed best.2
  return if greater then (version,parsed) else best

def nextVersion (published : List Str) : Except PyExc Str :=
  match published with
  | [] => .ok "0.1.0"
  | first::rest => do
    let parsed ← parseVersion (.str first)
    let highest ← loop higherVersion (first,parsed) rest
    let major ← Decimal.str highest.2.major
    let minor ← Decimal.str (highest.2.minor + 1)
    return major ++ Str.lit "." ++ minor ++ Str.lit ".0"

def rejectVersionRegression (published : List Str) (version : Str) : Except PyExc Unit := do
  let candidate ← parseVersion (.str version)
  let _ ← loop (fun _ existing => do
    let parsed ← parseVersion (.str existing)
    refuse (decide (comparePrecedence candidate parsed ≤ 0)) (toolLayerError .invalidRequest
      (Str.lit "version must be greater than the published version " ++ existing) (some "/version"))) () published
  return ()

/-- `given or fallback`. -/
def orElse (given : Option Str) (fallback : Str) : Str :=
  match given with
  | some (c::rest) => c::rest
  | _ => fallback

/-- The arguments of `register_connector`. -/
structure Registration where
  connectorKey : Str
  displayName : Option Str := none
  summary : Option Str := none
  sourceBytes : Bytes
  sourceFilename : Str
  proposedVersion : Option Str := none
  baseUrlOverride : Option Str := none
  authProfileRef : Option Str := none
  maxSourceBytes : Nat := 2 * 1024 * 1024

def connectorColumns (key : Str) (c : Connector) : Except PyExc Unit := do
  textColumn key
  textColumn c.displayName
  textColumn c.summary

def getConnector (db : Database) (connectorKey : Str) : Except PyExc Connector :=
  match db.connector connectorKey with
  | some c => .ok c
  | none => .error (notFound "no connector exists with that key")

def draftOf (c : Connector) : Except PyExc ConnectorDraft :=
  match c.draft with
  | some d => .ok d
  | none => .error (notFound "the connector has no draft; register a source document first")

def getDraft (db : Database) (connectorKey : Str) : Except PyExc ConnectorDraft := do
  let connector ← getConnector db connectorKey
  draftOf connector

section Authoring

variable [Pydantic]

/-- The connector row a registration leaves, the draft apart. -/
def registeredConnector (db : Database) (r : Registration) (analysis : AnalysisResult) : Connector :=
  match db.connector r.connectorKey with
  | none => ⟨orElse r.displayName analysis.apiTitle,orElse r.summary analysis.apiSummary,none,[],List.nodup_nil⟩
  | some c => { c with displayName := orElse r.displayName c.displayName, summary := orElse r.summary c.summary }

def chooseVersion (c : Connector) (proposed : Option Str) : Except PyExc Str :=
  match proposed with
  | none => nextVersion c.publishedVersions
  | some version => do
    let _ ← parseVersion (.str version)
    rejectVersionRegression c.publishedVersions version
    return version

variable [Unicode]

/-- The new draft, in place of the one there was. -/
def registerConnector (parsers : Parsers) (db : Database) (r : Registration) (now : Timestamp) :
    Except PyExc (Database × ConnectorDraft) := do
  let limits : SourceLimits := { maxBytes := r.maxSourceBytes }
  let loaded ← loadDocument parsers limits r.sourceBytes r.sourceFilename
  let analysis ← analyzeDocument limits loaded r.baseUrlOverride
  let connector := registeredConnector db r analysis
  connectorColumns r.connectorKey connector
  let proposedVersion ← chooseVersion connector r.proposedVersion
  let serialized ← serializeAnalysis analysis
  let review ← buildInitialReview serialized
  let draft ← ConnectorDraft.flush
    { revision := 1, proposedVersion := proposedVersion, baseUrl := analysis.baseUrl,
      authProfileRef := r.authProfileRef, sourceFilename := loaded.filename, sourceDigest := loaded.digest,
      sourceByteLength := loaded.byteLength, sourceFormat := loaded.sourceFormat,
      specVersion := loaded.specVersion, analyzerVersion := analysis.analyzerVersion,
      analysis := serialized, review := review.toDict, createdAt := now }
  return (db.putConnector r.connectorKey { connector with draft := some draft },draft)

end Authoring

/-- The arguments of `update_review`. -/
structure DraftUpdate where
  connectorKey : Str
  expectedRevision : Nat
  updates : List ReviewUpdate
  proposedVersion : Option Str := none
  baseUrl : Option Str := none
  authProfileRef : Option Str := none

/-- `auth_profile_ref or None`. -/
def nonEmpty (s : Str) : Option Str := if s.isEmpty then none else some s

def revisedVersion (versions : List Str) (current : Str) (proposed : Option Str) : Except PyExc Str :=
  match proposed with
  | none => .ok current
  | some version => do
    let _ ← parseVersion (.str version)
    rejectVersionRegression versions version
    return version

section Review

variable [Unicode]

/-- The draft as `update_review` changes it in memory. -/
def revisedDraft (versions : List Str) (draft : ConnectorDraft) (u : DraftUpdate) : Except PyExc ConnectorDraft := do
  refuse (decide (u.expectedRevision ≠ draft.revision))
    (revisionConflict "the draft changed since it was read; reload it and reapply the change")
  let state ← ReviewState.fromDict draft.review
  let state ← loop applyUpdate state u.updates
  let proposedVersion ← revisedVersion versions draft.proposedVersion u.proposedVersion
  return { draft with
    review := state.toDict
    proposedVersion := proposedVersion
    baseUrl := match u.baseUrl with | none => draft.baseUrl | some s => some s
    authProfileRef := match u.authProfileRef with | none => draft.authProfileRef | some s => nonEmpty s
    revision := draft.revision + 1 }

def updateReview (db : Database) (u : DraftUpdate) : Except PyExc (Database × ConnectorDraft) := do
  let connector ← getConnector db u.connectorKey
  let draft ← draftOf connector
  let revised ← revisedDraft connector.publishedVersions draft u
  let written ← revised.flushUpdate
  return (db.putConnector u.connectorKey { connector with draft := some written },written)

end Review

/-- The arguments of `publish_draft`. -/
structure Publication where
  connectorKey : Str
  expectedRevision : Nat
  publishedBy : Str
  version : Option Str := none

/-- The draft and its connector as publication reads them. -/
def Connector.reviewed (c : Connector) (key : Str) (draft : ConnectorDraft) (review : ReviewState) (version : Str)
    (now : Timestamp) : Draft :=
  { connectorKey := key, displayName := c.displayName, summary := c.summary, version := version,
    analysis := draft.analysis, review := review, baseUrl := draft.baseUrl, authProfileRef := draft.authProfileRef,
    sourceFilename := draft.sourceFilename, sourceDigest := draft.sourceDigest,
    sourceByteLength := draft.sourceByteLength, specVersion := draft.specVersion,
    createdAt := draft.createdAt, publishedAt := now }

section Publishing

variable [Unicode] (engine : SchemaEngine)

/-- All of `publish_draft` but the writes: the version and its row. -/
def preparedVersion (connector : Connector) (draft : ConnectorDraft) (p : Publication) (now : Timestamp) :
    Except PyExc (Str × PublishedVersion) := do
  refuse (decide (p.expectedRevision ≠ draft.revision))
    (revisionConflict "the draft changed since it was read; reload it and publish again")
  let target := orElse p.version draft.proposedVersion
  let _ ← parseVersion (.str target)
  rejectVersionRegression connector.publishedVersions target
  refuse (decide (target ∈ connector.publishedVersions)) versionExists
  let review ← ReviewState.fromDict draft.review
  let built ← buildConnectorDocument engine (connector.reviewed p.connectorKey draft review target now)
  return (target,
    { document := built.document, documentDigest := built.digest, sourceDigest := draft.sourceDigest,
      analyzerVersion := draft.analyzerVersion, toolCount := built.toolCount, publishedAt := now,
      publishedBy := p.publishedBy })

/-- Inserts a version row, unless the unique constraint refuses it. -/
def Connector.insertVersion (c : Connector) (version : Str) (row : PublishedVersion) : Except PyExc Connector :=
  if known : version ∈ Assoc.keys c.versions then .error versionExists
  else .ok { c with
    versions := c.versions ++ [(version,row)]
    uniqueVersions := by
      rw [Assoc.keys,List.map_append]
      exact List.nodup_append'.mpr ⟨c.uniqueVersions,List.nodup_singleton _,by simpa [Assoc.keys] using known⟩ }

/-- The draft is consumed with the insertion of the version. -/
def publishDraft (db : Database) (p : Publication) (now : Timestamp) : Except PyExc (Database × PublishedVersion) := do
  let connector ← getConnector db p.connectorKey
  let draft ← draftOf connector
  let (version,row) ← preparedVersion engine connector draft p now
  let written ← row.flush
  let published ← connector.insertVersion version written
  return (db.putConnector p.connectorKey { published with draft := none },written)

end Publishing

def getVersion (db : Database) (connectorKey version : Str) : Except PyExc PublishedVersion := do
  let connector ← getConnector db connectorKey
  match Assoc.get version connector.versions with
  | some row => return row
  | none => throw (notFound "no published version exists with that number")

def Connector.putVersion (c : Connector) (version : Str) (row : PublishedVersion) : Connector :=
  { c with
    versions := Assoc.set version row c.versions
    uniqueVersions := Assoc.nodup_keys_set version row c.versions c.uniqueVersions }

def disableVersion (db : Database) (connectorKey version reason : Str) (now : Timestamp) :
    Except PyExc (Database × PublishedVersion) := do
  let connector ← getConnector db connectorKey
  let row ← getVersion db connectorKey version
  if row.disabled then return (db,row)
  else do
    textColumn (reason.take 512)
    let disabled := { row with disabledAt := some now, disabledReason := some (reason.take 512) }
    return (db.putConnector connectorKey (connector.putVersion version disabled),disabled)

def createDeployment (db : Database) (deploymentKey displayName description : Str) :
    Except PyExc (Database × Deployment) := do
  refuse (db.deployment deploymentKey).isSome
    (toolLayerError .alreadyExists "a deployment already exists with that key" (some "/deployment_key"))
  textColumn deploymentKey
  textColumn displayName
  textColumn description
  let deployment : Deployment := ⟨displayName,description,[],List.nodup_nil⟩
  return (db.putDeployment deploymentKey deployment,deployment)

def getDeployment (db : Database) (deploymentKey : Str) : Except PyExc Deployment :=
  match db.deployment deploymentKey with
  | some d => .ok d
  | none => .error (notFound "no deployment exists with that key")

structure SnapshotSelection where
  connectorKey : Str
  version : Str

section Snapshots

variable [Pydantic] [Unicode]

/-- One round over the selections: the keys seen and the documents pinned so far. -/
def selectVersion (db : Database) (s : List Str × List Dict) (selection : SnapshotSelection) :
    Except PyExc (List Str × List Dict) := do
  refuse (s.1.contains selection.connectorKey) (toolLayerError .invalidRequest
    "a snapshot may pin only one version per connector" (some "/selections"))
  let row ← getVersion db selection.connectorKey selection.version
  refuse row.disabled (toolLayerError .invalidRequest (Str.lit "the version " ++ selection.connectorKey ++
    Str.lit " " ++ selection.version ++ Str.lit " is disabled and cannot be added to a snapshot") (some "/selections"))
  let _ ← ConnectorDefinition.modelValidate (.dict row.document)
  return (s.1 ++ [selection.connectorKey],s.2 ++ [row.document])

def documentKey (document : Dict) : Str :=
  match Dict.get document "connector_key" with
  | .str s => s
  | _ => []

/-- `connectors.sort(key=…)`; the key was just validated as a text. -/
def sortDocuments (documents : List Dict) : List Dict :=
  documents.insertionSort (fun a b => Str.le (documentKey a) (documentKey b) = true)

def nextRevision (d : Deployment) : Nat := 1 + (d.snapshots.map SnapshotRow.revision).foldl max 0

def snapshotPayload (deploymentKey : Str) (revision : Nat) (createdAt : Timestamp) (connectors : List Dict) : Dict :=
  [("contract_version",.str contractVersion),("deployment_key",.str deploymentKey),("revision",.int revision),
    ("created_at",.str createdAt.rfc3339),("connectors",.list (connectors.map .dict))]

def snapshotIdOf (payload : Dict) : Except PyExc Str := do
  let data ← canonicalBytes (.dict payload)
  return Str.lit "snap_" ++ (Sha256.hexdigest data).take 32

variable (scheme : Ed25519) (engine : SchemaEngine)

/-- The document of a snapshot with its identity, and its signature if there is a key. -/
def snapshotDocument (payload : Dict) (signingKey : Option SigningKey) : Except PyExc (Dict × Str × Str) := do
  let digest ← contentDigest payload []
  let snapshotId ← snapshotIdOf payload
  let document : Dict := Dict.set (Dict.set payload "snapshot_id" (.str snapshotId)) "snapshot_digest" (.str digest)
  match signingKey with
  | none => return (document,snapshotId,digest)
  | some key => do
    let signature ← signDocument scheme document key
    return (Dict.set document signatureField signature,snapshotId,digest)

/-- The previous snapshots stay, inactive. -/
def Deployment.insertSnapshot (d : Deployment) (row : SnapshotRow) : Except PyExc Deployment :=
  if taken : row.revision ∈ d.snapshots.map SnapshotRow.revision then
    .error (toolLayerError .alreadyExists "another snapshot was created concurrently; retry the request")
  else .ok { d with
    snapshots := d.snapshots.map (fun previous => { previous with active := false }) ++ [row]
    uniqueRevisions := by
      have kept : (fun previous : SnapshotRow => SnapshotRow.revision { previous with active := false }) =
          SnapshotRow.revision := rfl
      rw [List.map_append,List.map_map]
      exact List.nodup_append'.mpr ⟨d.uniqueRevisions,List.nodup_singleton _,by simpa using taken⟩ }

def createSnapshot (db : Database) (deploymentKey : Str) (selections : List SnapshotSelection) (createdBy : Str)
    (signingKey : Option SigningKey) (now : Timestamp) : Except PyExc (Database × SnapshotRow) := do
  let deployment ← getDeployment db deploymentKey
  let (_,pinned) ← loop (selectVersion db) ([],[]) selections
  let connectors := sortDocuments pinned
  let revision := nextRevision deployment
  let payload := snapshotPayload deploymentKey revision now connectors
  let (document,snapshotId,digest) ← snapshotDocument scheme payload signingKey
  validateDeploymentSnapshot engine (.dict document)
  let row ← SnapshotRow.flush
    { revision := revision, snapshotId := snapshotId, document := document, snapshotDigest := digest,
      connectorCount := connectors.length, active := true, createdAt := now, createdBy := createdBy }
  refuse (db.snapshotIds.contains snapshotId)
    (toolLayerError .alreadyExists "another snapshot was created concurrently; retry the request")
  let snapshots ← deployment.insertSnapshot row
  return (db.putDeployment deploymentKey snapshots,row)

end Snapshots

end ToolLayer.ControlPlane
