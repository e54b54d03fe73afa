import ToolLayer.ControlPlane.History

/-! What each accepted use case read and wrote. -/
namespace ToolLayer.ControlPlane
open Python Kit Kit.Result OpenApi

theorem textColumn_eq_ok {s : Str} : textColumn s = .ok () ↔ s.scalar = true := by
  simp [textColumn]

theorem jsonColumn_eq_ok {d out : Dict} (written : jsonColumn d = .ok out) : out = Value.reloadMembers [] d := by
  unfold jsonColumn at written
  split at written
  next => exact (Except.ok.inj written).symm
  next => cases written

/-- A written draft is the one given, its documents as the columns give them back. -/
theorem ConnectorDraft.flush_eq_ok {d out : ConnectorDraft} (written : d.flush = .ok out) :
    out = { d with analysis := Value.reloadMembers [] d.analysis, review := Value.reloadMembers [] d.review } := by
  unfold ConnectorDraft.flush at written
  obtain ⟨_,_,written⟩ := bind_eq_ok.mp written
  obtain ⟨_,_,written⟩ := bind_eq_ok.mp written
  obtain ⟨_,_,written⟩ := bind_eq_ok.mp written
  obtain ⟨_,_,written⟩ := bind_eq_ok.mp written
  obtain ⟨_,_,written⟩ := bind_eq_ok.mp written
  obtain ⟨_,_,written⟩ := bind_eq_ok.mp written
  obtain ⟨_,_,written⟩ := bind_eq_ok.mp written
  obtain ⟨_,_,written⟩ := bind_eq_ok.mp written
  obtain ⟨_,_,written⟩ := bind_eq_ok.mp written
  obtain ⟨analysis,storedAnalysis,written⟩ := bind_eq_ok.mp written
  obtain ⟨review,storedReview,written⟩ := bind_eq_ok.mp written
  cases written
  rw [jsonColumn_eq_ok storedAnalysis,jsonColumn_eq_ok storedReview]

theorem ConnectorDraft.flushUpdate_eq_ok {d out : ConnectorDraft} (written : d.flushUpdate = .ok out) :
    out = { d with review := Value.reloadMembers [] d.review } := by
  unfold ConnectorDraft.flushUpdate at written
  obtain ⟨_,_,written⟩ := bind_eq_ok.mp written
  obtain ⟨_,_,written⟩ := bind_eq_ok.mp written
  obtain ⟨_,_,written⟩ := bind_eq_ok.mp written
  obtain ⟨_,_,written⟩ := bind_eq_ok.mp written
  obtain ⟨review,stored,written⟩ := bind_eq_ok.mp written
  cases written
  rw [jsonColumn_eq_ok stored]

theorem PublishedVersion.flush_eq_ok {v out : PublishedVersion} (written : v.flush = .ok out) :
    out = { v with document := Value.reloadMembers [] v.document } := by
  unfold PublishedVersion.flush at written
  obtain ⟨document,stored,written⟩ := bind_eq_ok.mp written
  obtain ⟨_,_,written⟩ := bind_eq_ok.mp written
  obtain ⟨_,_,written⟩ := bind_eq_ok.mp written
  obtain ⟨_,_,written⟩ := bind_eq_ok.mp written
  obtain ⟨_,_,written⟩ := bind_eq_ok.mp written
  obtain ⟨_,_,written⟩ := bind_eq_ok.mp written
  cases written
  rw [jsonColumn_eq_ok stored]

/-- The draft of a connector, as any client reads it. -/
def storedDraft (db : Database) (key : Str) : Option ConnectorDraft := (db.connector key).bind Connector.draft

theorem draftOf_eq_ok {c : Connector} {d : ConnectorDraft} : draftOf c = .ok d ↔ c.draft = some d := by
  unfold draftOf
  cases c.draft <;> simp

theorem getConnector_eq_ok {db : Database} {key : Str} {c : Connector} :
    getConnector db key = .ok c ↔ db.connector key = some c := by
  unfold getConnector
  cases db.connector key <;> simp

theorem getDraft_eq_ok {db : Database} {key : Str} {d : ConnectorDraft} :
    getDraft db key = .ok d ↔ storedDraft db key = some d := by
  unfold getDraft storedDraft
  rw [bind_eq_ok]
  simp only [getConnector_eq_ok,draftOf_eq_ok,Option.bind_eq_some_iff]

theorem getVersion_eq_ok {db : Database} {key version : Str} {row : PublishedVersion} :
    getVersion db key version = .ok row ↔ ∃ c, db.connector key = some c ∧ Assoc.get version c.versions = some row := by
  unfold getVersion
  rw [bind_eq_ok]
  refine exists_congr fun c => ?_
  rw [getConnector_eq_ok]
  cases Assoc.get version c.versions <;> simp

/-- The draft of every connector after one of them was written. -/
theorem storedDraft_putConnector (db : Database) (key other : Str) (c : Connector) :
    storedDraft (db.putConnector key c) other = if other = key then c.draft else storedDraft db other := by
  unfold storedDraft
  split
  next same =>
    subst same
    rw [Database.connector_putConnector]
    rfl
  next different => rw [Database.connector_putConnector_other db c different]

section Registering

variable [Pydantic] [Unicode] {parsers : Parsers}

/-- The facts of an accepted registration. -/
structure Registered (parsers : Parsers) (db : Database) (r : Registration) (now : Timestamp) (next : Database)
    (d : ConnectorDraft) : Prop where
  exists_analysis : ∃ (loaded : LoadedDocument) (analysis : AnalysisResult) (serialized : Dict) (review : ReviewState),
    loadDocument parsers { maxBytes := r.maxSourceBytes } r.sourceBytes r.sourceFilename = .ok loaded ∧
    analyzeDocument { maxBytes := r.maxSourceBytes } loaded r.baseUrlOverride = .ok analysis ∧
    serializeAnalysis analysis = .ok serialized ∧ buildInitialReview serialized = .ok review ∧
    chooseVersion (registeredConnector db r analysis) r.proposedVersion = .ok d.proposedVersion ∧
    d.analysis = Value.reloadMembers [] serialized ∧ d.review = Value.reloadMembers [] review.toDict ∧
    d.sourceDigest = loaded.digest ∧ d.baseUrl = analysis.baseUrl ∧
    next = db.putConnector r.connectorKey { registeredConnector db r analysis with draft := some d }
  revision : d.revision = 1

theorem registerConnector_eq_ok {db next : Database} {r : Registration} {now : Timestamp} {d : ConnectorDraft}
    (done : registerConnector parsers db r now = .ok (next,d)) : Registered parsers db r now next d := by
  unfold registerConnector at done
  obtain ⟨loaded,load,done⟩ := bind_eq_ok.mp done
  obtain ⟨analysis,analyzed,done⟩ := bind_eq_ok.mp done
  obtain ⟨_,_,done⟩ := bind_eq_ok.mp done
  obtain ⟨version,chosen,done⟩ := bind_eq_ok.mp done
  obtain ⟨serialized,serialize,done⟩ := bind_eq_ok.mp done
  obtain ⟨review,initial,done⟩ := bind_eq_ok.mp done
  obtain ⟨draft,written,done⟩ := bind_eq_ok.mp done
  cases done
  have row := ConnectorDraft.flush_eq_ok written
  refine ⟨⟨loaded,analysis,serialized,review,load,analyzed,serialize,initial,?_,?_,?_,?_,?_,rfl⟩,?_⟩
  all_goals rw [row]
  exact chosen

omit [Unicode] in
theorem registeredConnector_versions (db : Database) (r : Registration) (analysis : AnalysisResult) :
    (registeredConnector db r analysis).versions = ((db.connector r.connectorKey).map Connector.versions).getD [] := by
  unfold registeredConnector
  cases db.connector r.connectorKey <;> rfl

end Registering

theorem revisedVersion_eq_ok {versions : List Str} {current version : Str} {proposed : Option Str}
    (chosen : revisedVersion versions current proposed = .ok version) :
    version = current ∨ proposed = some version := by
  cases proposed with
  | none => exact Or.inl (Except.ok.inj chosen).symm
  | some text =>
    obtain ⟨_,_,chosen⟩ := bind_eq_ok.mp chosen
    obtain ⟨_,_,chosen⟩ := bind_eq_ok.mp chosen
    exact Or.inr (congrArg some (Except.ok.inj chosen))

section Updating

variable [Unicode]

/-- The facts of an accepted update: the draft it found and the one it left. -/
structure Updated (db : Database) (u : DraftUpdate) (next : Database) (d : ConnectorDraft) : Prop where
  exists_draft : ∃ (c : Connector) (found revised : ConnectorDraft), db.connector u.connectorKey = some c ∧
    c.draft = some found ∧ u.expectedRevision = found.revision ∧
    revisedDraft c.publishedVersions found u = .ok revised ∧ revised.revision = found.revision + 1 ∧
    revised.analysis = found.analysis ∧ revised.sourceDigest = found.sourceDigest ∧
    d = { revised with review := Value.reloadMembers [] revised.review } ∧
    next = db.putConnector u.connectorKey { c with draft := some d }

theorem revisedDraft_eq_ok {versions : List Str} {draft revised : ConnectorDraft} {u : DraftUpdate}
    (done : revisedDraft versions draft u = .ok revised) :
    u.expectedRevision = draft.revision ∧ revised.revision = draft.revision + 1 ∧
      revised.analysis = draft.analysis ∧ revised.sourceDigest = draft.sourceDigest ∧
      (revised.proposedVersion = draft.proposedVersion ∨ u.proposedVersion = some revised.proposedVersion) := by
  unfold revisedDraft at done
  obtain ⟨current,done⟩ := refuse_bind_eq_ok.mp done
  obtain ⟨_,_,done⟩ := bind_eq_ok.mp done
  obtain ⟨_,_,done⟩ := bind_eq_ok.mp done
  obtain ⟨version,chosen,done⟩ := bind_eq_ok.mp done
  cases done
  exact ⟨by simpa using current,rfl,rfl,rfl,revisedVersion_eq_ok chosen⟩

theorem updateReview_eq_ok {db next : Database} {u : DraftUpdate} {d : ConnectorDraft}
    (done : updateReview db u = .ok (next,d)) : Updated db u next d := by
  unfold updateReview at done
  obtain ⟨c,foundConnector,done⟩ := bind_eq_ok.mp done
  obtain ⟨found,foundDraft,done⟩ := bind_eq_ok.mp done
  obtain ⟨revised,revise,done⟩ := bind_eq_ok.mp done
  obtain ⟨written,flushed,done⟩ := bind_eq_ok.mp done
  cases done
  obtain ⟨expected,bumped,analysis,digest,_⟩ := revisedDraft_eq_ok revise
  exact ⟨c,found,revised,getConnector_eq_ok.mp foundConnector,draftOf_eq_ok.mp foundDraft,expected,revise,bumped,
    analysis,digest,ConnectorDraft.flushUpdate_eq_ok flushed,rfl⟩

end Updating

section Publishing

variable [Unicode] (engine : SchemaEngine)

/-- The facts of an accepted publication. -/
structure Published (db : Database) (p : Publication) (now : Timestamp) (next : Database) (row : PublishedVersion) :
    Prop where
  exists_draft : ∃ (c published : Connector) (found : ConnectorDraft) (version : Str) (prepared : PublishedVersion),
    db.connector p.connectorKey = some c ∧ c.draft = some found ∧
    preparedVersion engine c found p now = .ok (version,prepared) ∧
    row = { prepared with document := Value.reloadMembers [] prepared.document } ∧
    c.insertVersion version row = .ok published ∧
    next = db.putConnector p.connectorKey { published with draft := none }

theorem publishDraft_eq_ok {db next : Database} {p : Publication} {now : Timestamp} {row : PublishedVersion}
    (done : publishDraft engine db p now = .ok (next,row)) : Published engine db p now next row := by
  unfold publishDraft at done
  obtain ⟨c,foundConnector,done⟩ := bind_eq_ok.mp done
  obtain ⟨found,foundDraft,done⟩ := bind_eq_ok.mp done
  obtain ⟨⟨version,prepared⟩,prepare,done⟩ := bind_eq_ok.mp done
  obtain ⟨written,flushed,done⟩ := bind_eq_ok.mp done
  obtain ⟨published,inserted,done⟩ := bind_eq_ok.mp done
  cases done
  exact ⟨c,published,found,version,prepared,getConnector_eq_ok.mp foundConnector,draftOf_eq_ok.mp foundDraft,prepare,
    PublishedVersion.flush_eq_ok flushed,inserted,rfl⟩

/-- What publication checked before it wrote. -/
structure Prepared (c : Connector) (found : ConnectorDraft) (p : Publication) (now : Timestamp) (version : Str)
    (row : PublishedVersion) : Prop where
  current : p.expectedRevision = found.revision
  target : version = orElse p.version found.proposedVersion
  increasing : rejectVersionRegression c.publishedVersions version = .ok ()
  exists_built : ∃ (review : ReviewState) (built : BuiltConnector), ReviewState.fromDict found.review = .ok review ∧
    buildConnectorDocument engine (c.reviewed p.connectorKey found review version now) = .ok built ∧
    row.document = built.document ∧ row.disabledAt = none

theorem preparedVersion_eq_ok {c : Connector} {found : ConnectorDraft} {p : Publication} {now : Timestamp}
    {version : Str} {row : PublishedVersion} (done : preparedVersion engine c found p now = .ok (version,row)) :
    Prepared engine c found p now version row := by
  unfold preparedVersion at done
  obtain ⟨current,done⟩ := refuse_bind_eq_ok.mp done
  obtain ⟨_,_,done⟩ := bind_eq_ok.mp done
  obtain ⟨_,increasing,done⟩ := bind_eq_ok.mp done
  obtain ⟨_,done⟩ := refuse_bind_eq_ok.mp done
  obtain ⟨review,read,done⟩ := bind_eq_ok.mp done
  obtain ⟨built,build,done⟩ := bind_eq_ok.mp done
  cases done
  exact ⟨by simpa using current,rfl,increasing,review,built,read,build,rfl,rfl⟩

omit [Unicode] in
theorem Connector.insertVersion_eq_ok {c out : Connector} {version : Str} {row : PublishedVersion}
    (inserted : c.insertVersion version row = .ok out) :
    out.versions = c.versions ++ [(version,row)] ∧ out.draft = c.draft ∧ version ∉ Assoc.keys c.versions := by
  unfold Connector.insertVersion at inserted
  split at inserted
  next => cases inserted
  next unknown =>
    cases inserted
    exact ⟨rfl,rfl,unknown⟩

end Publishing

/-- Disabling leaves every draft and every document as it was. -/
theorem disableVersion_eq_ok {db next : Database} {key version reason : Str} {now : Timestamp} {row : PublishedVersion}
    (done : disableVersion db key version reason now = .ok (next,row)) :
    next = db ∨ ∃ c found, db.connector key = some c ∧ Assoc.get version c.versions = some found ∧
      (row.document = found.document ∧ row.documentDigest = found.documentDigest) ∧
      next = db.putConnector key (c.putVersion version row) := by
  unfold disableVersion at done
  obtain ⟨c,foundConnector,done⟩ := bind_eq_ok.mp done
  obtain ⟨found,foundRow,done⟩ := bind_eq_ok.mp done
  split at done
  next =>
    cases done
    exact Or.inl rfl
  next =>
    obtain ⟨_,_,done⟩ := bind_eq_ok.mp done
    cases done
    have connector := getConnector_eq_ok.mp foundConnector
    obtain ⟨other,same,read⟩ := getVersion_eq_ok.mp foundRow
    rw [connector] at same
    cases same
    exact Or.inr ⟨c,found,connector,read,⟨rfl,rfl⟩,rfl⟩

theorem createDeployment_eq_ok {db next : Database} {key displayName description : Str} {d : Deployment}
    (done : createDeployment db key displayName description = .ok (next,d)) :
    d.snapshots = [] ∧ next = db.putDeployment key d := by
  unfold createDeployment at done
  obtain ⟨_,done⟩ := refuse_bind_eq_ok.mp done
  obtain ⟨_,_,done⟩ := bind_eq_ok.mp done
  obtain ⟨_,_,done⟩ := bind_eq_ok.mp done
  obtain ⟨_,_,done⟩ := bind_eq_ok.mp done
  cases done
  exact ⟨rfl,rfl⟩

theorem SnapshotRow.flush_eq_ok {s out : SnapshotRow} (written : s.flush = .ok out) :
    out = { s with document := Value.reloadMembers [] s.document } := by
  unfold SnapshotRow.flush at written
  obtain ⟨_,_,written⟩ := bind_eq_ok.mp written
  obtain ⟨_,_,written⟩ := bind_eq_ok.mp written
  obtain ⟨document,stored,written⟩ := bind_eq_ok.mp written
  obtain ⟨_,_,written⟩ := bind_eq_ok.mp written
  obtain ⟨_,_,written⟩ := bind_eq_ok.mp written
  cases written
  rw [jsonColumn_eq_ok stored]

theorem getDeployment_eq_ok {db : Database} {key : Str} {d : Deployment} :
    getDeployment db key = .ok d ↔ db.deployment key = some d := by
  unfold getDeployment
  cases db.deployment key <;> simp

section Snapshots

variable [Pydantic] [Unicode] {scheme : Ed25519} {engine : SchemaEngine}

/-- The facts of an accepted snapshot. -/
structure Snapshotted (scheme : Ed25519) (engine : SchemaEngine) (db : Database) (key : Str)
    (selections : List SnapshotSelection) (signingKey : Option SigningKey) (now : Timestamp) (next : Database)
    (row : SnapshotRow) : Prop where
  exists_document : ∃ (d snapshots : Deployment) (seen : List Str) (pinned : List Dict) (document : Dict) (digest : Str),
    db.deployment key = some d ∧ loop (selectVersion db) ([],[]) selections = .ok (seen,pinned) ∧
    snapshotDocument scheme (snapshotPayload key (nextRevision d) now (sortDocuments pinned)) signingKey =
      .ok (document,row.snapshotId,digest) ∧
    validateDeploymentSnapshot engine (.dict document) = .ok () ∧
    row.document = Value.reloadMembers [] document ∧ row.revision = nextRevision d ∧ row.snapshotDigest = digest ∧
    row.snapshotId ∉ db.snapshotIds ∧ d.insertSnapshot row = .ok snapshots ∧ next = db.putDeployment key snapshots

theorem createSnapshot_eq_ok {db next : Database} {key createdBy : Str} {selections : List SnapshotSelection}
    {signingKey : Option SigningKey} {now : Timestamp} {row : SnapshotRow}
    (done : createSnapshot scheme engine db key selections createdBy signingKey now = .ok (next,row)) :
    Snapshotted scheme engine db key selections signingKey now next row := by
  unfold createSnapshot at done
  obtain ⟨d,found,done⟩ := bind_eq_ok.mp done
  obtain ⟨⟨seen,pinned⟩,selected,done⟩ := bind_eq_ok.mp done
  obtain ⟨⟨document,snapshotId,digest⟩,built,done⟩ := bind_eq_ok.mp done
  obtain ⟨_,valid,done⟩ := bind_eq_ok.mp done
  obtain ⟨written,flushed,done⟩ := bind_eq_ok.mp done
  obtain ⟨fresh,done⟩ := refuse_bind_eq_ok.mp done
  obtain ⟨snapshots,inserted,done⟩ := bind_eq_ok.mp done
  cases done
  have stored := SnapshotRow.flush_eq_ok flushed
  have facts : row.snapshotId = snapshotId ∧ row.document = Value.reloadMembers [] document ∧
      row.revision = nextRevision d ∧ row.snapshotDigest = digest := by
    rw [stored]
    exact ⟨rfl,rfl,rfl,rfl⟩
  obtain ⟨sameId,sameDocument,sameRevision,sameDigest⟩ := facts
  refine ⟨d,snapshots,seen,pinned,document,digest,getDeployment_eq_ok.mp found,selected,sameId ▸ built,valid,
    sameDocument,sameRevision,sameDigest,?_,inserted,rfl⟩
  rw [sameId]
  simpa using fresh

end Snapshots

end ToolLayer.ControlPlane
