import ToolLayer.ControlPlane.Publication
import ToolLayer.Python.Reload

/-! The tables, with their unique constraints as fields, and what their columns take.
A connector holds its draft and its versions, a deployment its snapshots. Integers are
those of the default database. -/
namespace ToolLayer.ControlPlane
open Python Kit Kit.Result OpenApi

def maxInteger : Nat := 2 ^ 63 - 1

def integerColumn (n : Nat) : Except PyExc Unit := refuse (decide (maxInteger < n)) .overflowError

def textColumn (s : Str) : Except PyExc Unit := refuse (!s.scalar) .unicodeEncodeError

def nullableTextColumn : Option Str → Except PyExc Unit
  | some s => textColumn s
  | none => .ok ()

/-- What a JSON column gives back later. -/
def jsonColumn (d : Dict) : Except PyExc Dict :=
  match (Json.dumps Json.Options.default (.dict d) : Except PyExc Str) with
  | .ok _ => .ok (Value.reloadMembers [] d)
  | .error _ => .error .statementError

structure ConnectorDraft where
  revision : Nat
  proposedVersion : Str
  baseUrl : Option Str
  authProfileRef : Option Str
  sourceFilename : Str
  sourceDigest : Str
  sourceByteLength : Nat
  sourceFormat : SourceFormat
  specVersion : Str
  analyzerVersion : Str
  analysis : Dict
  review : Dict
  createdAt : Timestamp

/-- Writes a draft row: every column must take its value. -/
def ConnectorDraft.flush (d : ConnectorDraft) : Except PyExc ConnectorDraft := do
  integerColumn d.revision
  textColumn d.proposedVersion
  nullableTextColumn d.baseUrl
  nullableTextColumn d.authProfileRef
  textColumn d.sourceFilename
  textColumn d.sourceDigest
  integerColumn d.sourceByteLength
  textColumn d.specVersion
  textColumn d.analyzerVersion
  let analysis ← jsonColumn d.analysis
  let review ← jsonColumn d.review
  return { d with analysis := analysis, review := review }

/-- Writes only what an update changes; the analysis is not written again. -/
def ConnectorDraft.flushUpdate (d : ConnectorDraft) : Except PyExc ConnectorDraft := do
  integerColumn d.revision
  textColumn d.proposedVersion
  nullableTextColumn d.baseUrl
  nullableTextColumn d.authProfileRef
  let review ← jsonColumn d.review
  return { d with review := review }

structure PublishedVersion where
  document : Dict
  documentDigest : Str
  sourceDigest : Str
  analyzerVersion : Str
  toolCount : Nat
  publishedAt : Timestamp
  publishedBy : Str
  disabledAt : Option Timestamp := none
  disabledReason : Option Str := none

def PublishedVersion.disabled (v : PublishedVersion) : Bool := v.disabledAt.isSome

def PublishedVersion.flush (v : PublishedVersion) : Except PyExc PublishedVersion := do
  let document ← jsonColumn v.document
  textColumn v.documentDigest
  textColumn v.sourceDigest
  textColumn v.analyzerVersion
  integerColumn v.toolCount
  textColumn v.publishedBy
  return { v with document := document }

/-- At most one draft, and no version twice. -/
structure Connector where
  displayName : Str
  summary : Str
  draft : Option ConnectorDraft
  versions : List (Str × PublishedVersion)
  uniqueVersions : (Assoc.keys versions).Nodup

def Connector.publishedVersions (c : Connector) : List Str := Assoc.keys c.versions

structure SnapshotRow where
  revision : Nat
  snapshotId : Str
  document : Dict
  snapshotDigest : Str
  connectorCount : Nat
  active : Bool
  createdAt : Timestamp
  createdBy : Str

def SnapshotRow.flush (s : SnapshotRow) : Except PyExc SnapshotRow := do
  integerColumn s.revision
  textColumn s.snapshotId
  let document ← jsonColumn s.document
  textColumn s.snapshotDigest
  textColumn s.createdBy
  return { s with document := document }

structure Deployment where
  displayName : Str
  description : Str
  snapshots : List SnapshotRow
  uniqueRevisions : (snapshots.map SnapshotRow.revision).Nodup

structure Database where
  connectors : List (Str × Connector)
  deployments : List (Str × Deployment)
  uniqueConnectors : (Assoc.keys connectors).Nodup
  uniqueDeployments : (Assoc.keys deployments).Nodup

namespace Database

def empty : Database := ⟨[],[],List.nodup_nil,List.nodup_nil⟩

def connector (db : Database) (key : Str) : Option Connector := Assoc.get key db.connectors

def deployment (db : Database) (key : Str) : Option Deployment := Assoc.get key db.deployments

def putConnector (db : Database) (key : Str) (c : Connector) : Database :=
  { db with
    connectors := Assoc.set key c db.connectors
    uniqueConnectors := Assoc.nodup_keys_set key c db.connectors db.uniqueConnectors }

def putDeployment (db : Database) (key : Str) (d : Deployment) : Database :=
  { db with
    deployments := Assoc.set key d db.deployments
    uniqueDeployments := Assoc.nodup_keys_set key d db.deployments db.uniqueDeployments }

def snapshotIds (db : Database) : List Str :=
  db.deployments.flatMap (fun entry => entry.2.snapshots.map SnapshotRow.snapshotId)

@[simp] theorem connector_putConnector (db : Database) (key : Str) (c : Connector) :
    (db.putConnector key c).connector key = some c := Assoc.get_set_same key c db.connectors

theorem connector_putConnector_other (db : Database) {key other : Str} (c : Connector) (different : other ≠ key) :
    (db.putConnector key c).connector other = db.connector other :=
  Assoc.get_set_other c db.connectors (Ne.symm different)

@[simp] theorem connector_putDeployment (db : Database) (key other : Str) (d : Deployment) :
    (db.putDeployment key d).connector other = db.connector other := rfl

@[simp] theorem deployment_putDeployment (db : Database) (key : Str) (d : Deployment) :
    (db.putDeployment key d).deployment key = some d := Assoc.get_set_same key d db.deployments

theorem deployment_putDeployment_other (db : Database) {key other : Str} (d : Deployment) (different : other ≠ key) :
    (db.putDeployment key d).deployment other = db.deployment other :=
  Assoc.get_set_other d db.deployments (Ne.symm different)

@[simp] theorem deployment_putConnector (db : Database) (key other : Str) (c : Connector) :
    (db.putConnector key c).deployment other = db.deployment other := rfl

end Database

end ToolLayer.ControlPlane
