import ToolLayer.ControlPlane.Interleaving
import ToolLayer.ControlPlane.SnapshotOrder
import ToolLayer.ControlPlane.Stored

/-! What holds of the stored rows in every reachable state, and what no later request
changes. -/
namespace ToolLayer.ControlPlane
open Python Kit Kit.Result OpenApi

/-- A version's document names its connector and is the one its digest was taken over. -/
structure PublishedVersion.Sealed (key : Str) (row : PublishedVersion) : Prop where
  distinct : Value.distinct (.dict row.document) = true
  digest : contentDigest row.document [] = .ok row.documentDigest
  named : Dict.get row.document "connector_key" = .str key

structure Connector.Sound (key : Str) (c : Connector) : Prop where
  draft : ∀ d, c.draft = some d → Value.distinct (.dict d.analysis) = true ∧ Value.distinct (.dict d.review) = true
  sealed : ∀ entry ∈ c.versions, entry.2.Sealed key
  increasing : c.publishedVersions.Pairwise Ordered

/-- A snapshot verifies against the digest beside it and pins one version of a connector at most. -/
structure SnapshotRow.Sealed (row : SnapshotRow) : Prop where
  declared : Dict.get row.document "snapshot_digest" = .str row.snapshotDigest
  verifies : verifyDigest row.document (.str row.snapshotDigest) snapshotDigestExcluded = .ok true
  exists_pinned : ∃ documents : List Dict, Dict.get row.document "connectors" = .list (documents.map .dict) ∧
    (documents.map documentKey).Nodup

structure Deployment.Sound (d : Deployment) : Prop where
  sequence : InSequence d.snapshots
  sealed : ∀ row ∈ d.snapshots, row.Sealed

structure Database.Sound (db : Database) : Prop where
  connectors : ∀ key c, db.connector key = some c → c.Sound key
  deployments : ∀ key d, db.deployment key = some d → d.Sound

theorem Database.Sound.empty : Database.empty.Sound := 
  ⟨fun _ _ found => (nomatch found),fun _ _ found => (nomatch found)⟩

theorem Database.Sound.putConnector {db : Database} {key : Str} {c : Connector} (sound : db.Sound) (new : c.Sound key) :
    (db.putConnector key c).Sound := by
  refine ⟨fun other found stored => ?_,sound.deployments⟩
  by_cases same : other = key
  · subst same
    rw [Database.connector_putConnector] at stored
    exact Option.some.inj stored ▸ new
  · rw [Database.connector_putConnector_other db c same] at stored
    exact sound.connectors other found stored

theorem Database.Sound.putDeployment {db : Database} {key : Str} {d : Deployment} (sound : db.Sound) (new : d.Sound) :
    (db.putDeployment key d).Sound := by
  refine ⟨sound.connectors,fun other found stored => ?_⟩
  by_cases same : other = key
  · subst same
    rw [Database.deployment_putDeployment] at stored
    exact Option.some.inj stored ▸ new
  · rw [Database.deployment_putDeployment_other db d same] at stored
    exact sound.deployments other found stored

section Publication

variable [Unicode] {engine : SchemaEngine}

theorem preparedVersion_built {c : Connector} {found : ConnectorDraft} {p : Publication} {now : Timestamp}
    {version : Str} {row : PublishedVersion} (done : preparedVersion engine c found p now = .ok (version,row)) :
    ∃ review built, ReviewState.fromDict found.review = .ok review ∧
      Built engine (c.reviewed p.connectorKey found review version now) built ∧ row.document = built.document ∧
      row.documentDigest = built.digest := by
  unfold preparedVersion at done
  obtain ⟨_,done⟩ := refuse_bind_eq_ok.mp done
  obtain ⟨_,_,done⟩ := bind_eq_ok.mp done
  obtain ⟨_,_,done⟩ := bind_eq_ok.mp done
  obtain ⟨_,done⟩ := refuse_bind_eq_ok.mp done
  obtain ⟨review,read,done⟩ := bind_eq_ok.mp done
  obtain ⟨built,build,done⟩ := bind_eq_ok.mp done
  cases done
  exact ⟨review,built,read,buildConnectorDocument_eq_ok build,rfl,rfl⟩

/-- The row a publication stores is the one it prepared. -/
theorem sealed_preparedVersion {c : Connector} {found : ConnectorDraft} {p : Publication} {now : Timestamp}
    {version : Str} {row : PublishedVersion} (done : preparedVersion engine c found p now = .ok (version,row))
    (distinct : Value.distinct (.dict found.analysis) = true ∧ Value.distinct (.dict found.review) = true) :
    row.Sealed p.connectorKey ∧ Value.reloadMembers [] row.document = row.document := by
  obtain ⟨review,built,read,made,document,digest⟩ := preparedVersion_built done
  have keys := distinct_built made distinct.1 (distinct_reviewState read distinct.2)
  have plain := scalar_of_contentDigest made.digest
  rw [← document] at keys plain
  refine ⟨⟨keys,?_,?_⟩,Value.reloadMembers_of_scalar keys plain⟩
  · rw [document,digest]
    exact made.digest
  · obtain ⟨_,_,_,_,_,_,shape,_⟩ := made.exists_tools
    rw [document,shape]
    rfl

end Publication

section Snapshots

theorem startsWith_digestOf (data : Bytes) : Str.startsWith (digestOf data) digestPrefix = true := by
  rw [Str.startsWith,digestOf,List.isPrefixOf_iff_prefix]
  exact List.prefix_append _ _

theorem without_nil (document : Dict) : Dict.without document [] = document := by simp [Dict.without]

theorem getVersion_sealed {db : Database} {key version : Str} {row : PublishedVersion} (sound : db.Sound)
    (found : getVersion db key version = .ok row) : row.Sealed key := by
  obtain ⟨c,connector,stored⟩ := getVersion_eq_ok.mp found
  exact (sound.connectors key c connector).sealed _ (Assoc.mem_of_get stored)

variable {scheme : Ed25519} {engine : SchemaEngine}

/-- The members of a snapshot document, whether it is signed or not. -/
theorem snapshotDocument_members {payload document : Dict} {signingKey : Option SigningKey} {snapshotId digest : Str}
    (deploymentKey : Str) (revision : Nat) (createdAt : Timestamp) (connectors : List Dict)
    (shape : payload = snapshotPayload deploymentKey revision createdAt connectors)
    (done : snapshotDocument scheme payload signingKey = .ok (document,snapshotId,digest)) :
    Dict.get document "connectors" = .list (connectors.map .dict) ∧ Dict.get document "snapshot_digest" = .str digest ∧
      Dict.without document snapshotDigestExcluded = payload := by
  subst shape
  obtain ⟨_,_,form⟩ := snapshotDocument_eq_ok done
  rcases form with ⟨_,rfl⟩ | ⟨_,_,_,_,rfl⟩
  · exact ⟨rfl,rfl,rfl⟩
  · exact ⟨rfl,rfl,rfl⟩

variable [Pydantic] [Unicode]

/-- The document of a published version that is not disabled. -/
def Enabled (db : Database) (document : Dict) : Prop :=
  ∃ key version row, getVersion db key version = .ok row ∧ row.document = document ∧ row.disabled = false

/-- What a selection adds: the document of an enabled version of a connector not seen before. -/
theorem selectVersion_eq_ok {db : Database} {s t : List Str × List Dict} {selection : SnapshotSelection}
    (done : selectVersion db s selection = .ok t) : ∃ row model, selection.connectorKey ∉ s.1 ∧
      getVersion db selection.connectorKey selection.version = .ok row ∧ row.disabled = false ∧
      ConnectorDefinition.modelValidate (.dict row.document) = .ok model ∧
      t = (s.1 ++ [selection.connectorKey],s.2 ++ [row.document]) := by
  unfold selectVersion at done
  obtain ⟨new,done⟩ := refuse_bind_eq_ok.mp done
  obtain ⟨row,found,done⟩ := bind_eq_ok.mp done
  obtain ⟨enabled,done⟩ := refuse_bind_eq_ok.mp done
  obtain ⟨model,valid,done⟩ := bind_eq_ok.mp done
  cases done
  exact ⟨row,model,by simpa using new,found,enabled,valid,rfl⟩

/-- The documents selected so far: enabled, of dictionaries, one for each key seen. -/
structure Selected (db : Database) (seen : List Str) (pinned : List Dict) : Prop where
  keys : pinned.map documentKey = seen
  once : seen.Nodup
  enabled : ∀ document ∈ pinned, Enabled db document
  distinct : ∀ document ∈ pinned, Value.distinct (.dict document) = true

theorem selected {db : Database} {selections : List SnapshotSelection} {seen : List Str} {pinned : List Dict}
    (sound : db.Sound) (done : loop (selectVersion db) ([],[]) selections = .ok (seen,pinned)) :
    Selected db seen pinned := by
  refine loop_keeps (fun s : List Str × List Dict => Selected db s.1 s.2) ?_
    ⟨rfl,List.nodup_nil,by simp,by simp⟩ done
  rintro s selection t _ ⟨keys,once,enabled,distinct⟩ step
  obtain ⟨row,_,new,found,isEnabled,_,rfl⟩ := selectVersion_eq_ok step
  have sealed := getVersion_sealed sound found
  have named : documentKey row.document = selection.connectorKey := by rw [documentKey,sealed.named]
  refine ⟨?_,?_,?_,?_⟩
  · rw [List.map_append,keys,List.map_singleton,named]
  · exact List.nodup_append'.mpr ⟨once,List.nodup_singleton _,by simpa using new⟩
  · intro document member
    rcases List.mem_append.mp member with old | this
    · exact enabled document old
    · exact ⟨_,_,row,found,(List.mem_singleton.mp this).symm,isEnabled⟩
  · intro document member
    rcases List.mem_append.mp member with old | this
    · exact distinct document old
    · exact List.mem_singleton.mp this ▸ sealed.distinct

omit [Pydantic] [Unicode] in
theorem distinct_snapshotPayload (deploymentKey : Str) (revision : Nat) (createdAt : Timestamp) {connectors : List Dict}
    (distinct : ∀ document ∈ connectors, Value.distinct (.dict document) = true) :
    Value.distinct (.dict (snapshotPayload deploymentKey revision createdAt connectors)) = true := by
  have listed : Value.distinct (.list (connectors.map .dict)) = true := by
    rw [Value.distinct_list,List.forall_mem_map]
    exact distinct
  simp only [snapshotPayload,Value.distinct_dict,Assoc.keys_cons,Assoc.keys_nil,List.forall_mem_cons,Value.distinct_str,
    Value.distinct_int,listed,true_and]
  exact ⟨by decide,by simp⟩

/-- The row of an accepted snapshot: sealed, with enabled documents of the database in it. -/
theorem createSnapshot_row {db next : Database} {key createdBy : Str} {selections : List SnapshotSelection}
    {signingKey : Option SigningKey} {now : Timestamp} {row : SnapshotRow} (sound : db.Sound)
    (done : createSnapshot scheme engine db key selections createdBy signingKey now = .ok (next,row)) :
    row.Sealed ∧ ∃ documents : List Dict, Dict.get row.document "connectors" = .list (documents.map .dict) ∧
      ∀ document ∈ documents, Enabled db document := by
  obtain ⟨d,snapshots,seen,pinned,document,digest,_,selection,built,_,stored,_,declared,_⟩ :=
    (createSnapshot_eq_ok done).exists_document
  have chosen := selected sound selection
  have reordered : (sortDocuments pinned).Perm pinned := List.perm_insertionSort _ _
  have distinct := distinct_snapshotPayload key (nextRevision d) now
    (fun document member => chosen.distinct document (reordered.mem_iff.mp member))
  rw [reload_snapshotDocument built distinct] at stored
  obtain ⟨connectors,named,content⟩ := snapshotDocument_members key (nextRevision d) now (sortDocuments pinned) rfl built
  obtain ⟨taken,_,_⟩ := snapshotDocument_eq_ok built
  have embedded : Dict.get row.document "connectors" = .list ((sortDocuments pinned).map .dict) := stored ▸ connectors
  refine ⟨⟨?_,?_,sortDocuments pinned,embedded,?_⟩,sortDocuments pinned,embedded,?_⟩
  · rw [stored,declared]
    exact named
  · rw [declared,stored,verifyDigest_eq_true]
    refine ⟨?_,?_⟩
    · obtain ⟨data,_,hashed⟩ := bind_eq_ok.mp taken
      cases hashed
      exact startsWith_digestOf data
    · rw [contentDigest,content]
      rw [contentDigest,without_nil] at taken
      exact taken
  · rw [(reordered.map documentKey).nodup_iff,chosen.keys]
    exact chosen.once
  · exact fun document member => chosen.enabled document (reordered.mem_iff.mp member)

end Snapshots

section Runs

/-- Every published document and every snapshot is still there, as it was. -/
structure Extends (before after : Database) : Prop where
  published : ∀ key version row, getVersion before key version = .ok row → ∃ row',
    getVersion after key version = .ok row' ∧ row'.document = row.document ∧ row'.documentDigest = row.documentDigest
  snapshots : ∀ key d row, before.deployment key = some d → row ∈ d.snapshots → ∃ d' row',
    after.deployment key = some d' ∧ row' ∈ d'.snapshots ∧ row'.revision = row.revision ∧
      row'.document = row.document ∧ row'.snapshotDigest = row.snapshotDigest

theorem Extends.refl (db : Database) : Extends db db :=
  ⟨fun _ _ row found => ⟨row,found,rfl,rfl⟩,fun _ d row found member => ⟨d,row,found,member,rfl,rfl,rfl⟩⟩

theorem Extends.trans {a b c : Database} (first : Extends a b) (second : Extends b c) : Extends a c := by
  constructor
  · intro key version row found
    obtain ⟨middle,there,document,digest⟩ := first.published key version row found
    obtain ⟨last,here,document',digest'⟩ := second.published key version middle there
    exact ⟨last,here,document'.trans document,digest'.trans digest⟩
  · intro key d row found member
    obtain ⟨d',middle,there,inside,revision,document,digest⟩ := first.snapshots key d row found member
    obtain ⟨d'',last,here,inside',revision',document',digest'⟩ := second.snapshots key d' middle there inside
    exact ⟨d'',last,here,inside',revision'.trans revision,document'.trans document,digest'.trans digest⟩

/-- A connector written back with the documents it had. -/
theorem Extends.putConnector {db : Database} {key : Str} {c : Connector}
    (kept : ∀ found version row, db.connector key = some found → Assoc.get version found.versions = some row →
      ∃ row', Assoc.get version c.versions = some row' ∧ row'.document = row.document ∧
        row'.documentDigest = row.documentDigest) : Extends db (db.putConnector key c) := by
  refine ⟨fun other version row found => ?_,fun _ d row found member => ⟨d,row,found,member,rfl,rfl,rfl⟩⟩
  by_cases same : other = key
  · subst same
    obtain ⟨old,stored,read⟩ := getVersion_eq_ok.mp found
    obtain ⟨row',read',unchanged⟩ := kept old version row stored read
    exact ⟨row',getVersion_eq_ok.mpr ⟨c,Database.connector_putConnector db other c,read'⟩,unchanged⟩
  · obtain ⟨old,stored,read⟩ := getVersion_eq_ok.mp found
    exact ⟨row,getVersion_eq_ok.mpr ⟨old,(Database.connector_putConnector_other db c same).trans stored,read⟩,rfl,rfl⟩

theorem Extends.putConnector_of_versions {db : Database} {key : Str} {c found : Connector} (stored : db.connector key = some found)
    (same : c.versions = found.versions) : Extends db (db.putConnector key c) := by
  refine Extends.putConnector (fun other version row there read => ⟨row,?_,rfl,rfl⟩)
  rw [stored] at there
  cases there
  rw [same]
  exact read

theorem disabled_sound {db next : Database} {key version reason : Str} {now : Timestamp} {row : PublishedVersion}
    (sound : db.Sound) (done : disableVersion db key version reason now = .ok (next,row)) : next.Sound ∧ Extends db next := by
  rcases disableVersion_eq_ok done with rfl | ⟨c,found,stored,read,⟨document,digest⟩,rfl⟩
  · exact ⟨sound,Extends.refl _⟩
  · have before := sound.connectors key c stored
    have old := before.sealed _ (Assoc.mem_of_get read)
    have known : version ∈ Assoc.keys c.versions := Assoc.get_isSome_iff.mp (by rw [read]; rfl)
    refine ⟨sound.putConnector ⟨before.draft,?_,?_⟩,Extends.putConnector (fun other wanted past there got => ?_)⟩
    · intro entry member
      rcases Assoc.mem_set member with rfl | earlier
      · exact ⟨document ▸ old.distinct,document ▸ digest ▸ old.digest,document ▸ old.named⟩
      · exact before.sealed entry earlier
    · change (Assoc.keys (Assoc.set version row c.versions)).Pairwise Ordered
      rw [Assoc.keys_set,if_pos known]
      exact before.increasing
    · rw [stored] at there
      cases there
      by_cases same : wanted = version
      · subst same
        rw [read] at got
        cases got
        exact ⟨row,Assoc.get_set_same _ _ _,document,digest⟩
      · exact ⟨past,(Assoc.get_set_other row c.versions (Ne.symm same)).trans got,rfl,rfl⟩

theorem deployed_sound {db next : Database} {key displayName description : Str} {d : Deployment} (sound : db.Sound)
    (done : createDeployment db key displayName description = .ok (next,d)) : next.Sound ∧ Extends db next := by
  have free : db.deployment key = none := by
    unfold createDeployment at done
    simpa using (refuse_bind_eq_ok.mp done).1
  obtain ⟨empty,rfl⟩ := createDeployment_eq_ok done
  refine ⟨sound.putDeployment ⟨?_,by simp [empty]⟩,fun _ _ row found => ⟨row,found,rfl,rfl⟩,?_⟩
  · rw [empty]
    exact ⟨rfl,by simp,by simp⟩
  · intro other e row found member
    have apart : other ≠ key := by
      rintro rfl
      rw [free] at found
      cases found
    exact ⟨e,row,(Database.deployment_putDeployment_other db d apart).trans found,member,rfl,rfl,rfl⟩

theorem insertSnapshot_eq_ok {d out : Deployment} {row : SnapshotRow} (inserted : d.insertSnapshot row = .ok out) :
    out.snapshots = d.snapshots.map (fun previous => { previous with active := false }) ++ [row] := by
  unfold Deployment.insertSnapshot at inserted
  split at inserted
  next => cases inserted
  next => cases inserted; rfl

variable [Unicode]

theorem updated_sound {db next : Database} {u : DraftUpdate} {d : ConnectorDraft} (sound : db.Sound)
    (done : updateReview db u = .ok (next,d)) : next.Sound ∧ Extends db next := by
  obtain ⟨c,found,revised,stored,draft,_,_,_,analysis,_,rfl,rfl⟩ := (updateReview_eq_ok done).exists_draft
  have before := sound.connectors _ c stored
  refine ⟨sound.putConnector ⟨?_,before.sealed,before.increasing⟩,Extends.putConnector_of_versions stored rfl⟩
  rintro _ ⟨⟩
  refine ⟨?_,Value.distinct_reloadMembers_nil _⟩
  rw [analysis]
  exact (before.draft found draft).1

theorem published_sound {engine : SchemaEngine} {db next : Database} {p : Publication} {now : Timestamp} {row : PublishedVersion} (sound : db.Sound)
    (done : publishDraft engine db p now = .ok (next,row)) : next.Sound ∧ Extends db next := by
  obtain ⟨c,published,found,version,prepared,stored,draft,prepare,written,inserted,rfl⟩ :=
    (publishDraft_eq_ok engine done).exists_draft
  have before := sound.connectors _ c stored
  obtain ⟨sealed,same⟩ := sealed_preparedVersion prepare (before.draft found draft)
  rw [same] at written
  obtain ⟨versions,_,_⟩ := Connector.insertVersion_eq_ok inserted
  have greater := rejectVersionRegression_eq_ok (preparedVersion_eq_ok engine prepare).increasing
  refine ⟨sound.putConnector ⟨fun _ none_ => (nomatch none_),?_,?_⟩,Extends.putConnector (fun other key old there read => ?_)⟩
  · intro entry member
    change entry ∈ published.versions at member
    rw [versions] at member
    rcases List.mem_append.mp member with earlier | new
    · exact before.sealed entry earlier
    · rw [List.mem_singleton.mp new,written]
      exact sealed
  · change (Assoc.keys published.versions).Pairwise Ordered
    rw [versions,Assoc.keys,List.map_append,List.map_singleton,List.pairwise_append]
    refine ⟨before.increasing,List.pairwise_singleton _ _,fun a member b only => ?_⟩
    rw [List.mem_singleton.mp only]
    exact greater a member
  · rw [stored] at there
    cases there
    refine ⟨old,?_,rfl,rfl⟩
    rw [versions]
    exact Assoc.get_append _ read

variable [Pydantic] {setting : Setting}

theorem registered_sound {db next : Database} {r : Registration} {now : Timestamp} {d : ConnectorDraft} (sound : db.Sound)
    (done : registerConnector setting.parsers db r now = .ok (next,d)) : next.Sound ∧ Extends db next := by
  obtain ⟨_,analysis,serialized,review,_,_,_,_,_,storedAnalysis,storedReview,_,_,rfl⟩ :=
    (registerConnector_eq_ok done).exists_analysis
  have versions := registeredConnector_versions db r analysis
  have draft : ∀ e, some d = some e → Value.distinct (.dict e.analysis) = true ∧ Value.distinct (.dict e.review) = true := by
    intro e same
    cases same
    rw [storedAnalysis,storedReview]
    exact ⟨Value.distinct_reloadMembers_nil _,Value.distinct_reloadMembers_nil _⟩
  cases found : db.connector r.connectorKey with
  | none =>
    rw [found] at versions
    refine ⟨sound.putConnector ⟨draft,?_,?_⟩,Extends.putConnector (fun _ _ _ there => ?_)⟩
    · intro entry member
      exact absurd member (by simp [versions])
    · change (Assoc.keys (registeredConnector db r analysis).versions).Pairwise Ordered
      rw [versions]
      exact List.Pairwise.nil
    · rw [found] at there
      cases there
  | some c =>
    rw [found] at versions
    have before := sound.connectors _ c found
    refine ⟨sound.putConnector ⟨draft,?_,?_⟩,Extends.putConnector_of_versions found versions⟩
    · intro entry member
      refine before.sealed entry ?_
      change entry ∈ (registeredConnector db r analysis).versions at member
      rwa [versions] at member
    · change (Assoc.keys (registeredConnector db r analysis).versions).Pairwise Ordered
      rw [versions]
      exact before.increasing

theorem snapshotted_sound {db next : Database} {key createdBy : Str} {selections : List SnapshotSelection}
    {signingKey : Option SigningKey} {now : Timestamp} {row : SnapshotRow} (sound : db.Sound)
    (done : createSnapshot setting.scheme setting.engine db key selections createdBy signingKey now = .ok (next,row)) :
    next.Sound ∧ Extends db next := by
  obtain ⟨sealed,_⟩ := createSnapshot_row sound done
  have ordered := createSnapshot_inSequence (fun key d found => (sound.deployments key d found).sequence) done
  obtain ⟨d,d',_,_,_,_,found,_,_,_,_,_,_,_,inserted,rfl⟩ := (createSnapshot_eq_ok done).exists_document
  have rows := insertSnapshot_eq_ok inserted
  have before := sound.deployments key d found
  refine ⟨sound.putDeployment ⟨ordered key d' (Database.deployment_putDeployment db key d'),?_⟩,
    fun _ _ row found => ⟨row,found,rfl,rfl⟩,?_⟩
  · intro other member
    rw [rows] at member
    rcases List.mem_append.mp member with old | new
    · obtain ⟨previous,inside,rfl⟩ := List.mem_map.mp old
      obtain ⟨declared,verifies,pinned⟩ := before.sealed previous inside
      exact ⟨declared,verifies,pinned⟩
    · exact List.mem_singleton.mp new ▸ sealed
  · intro other e old there member
    by_cases same : other = key
    · subst same
      rw [found] at there
      cases there
      refine ⟨d',{ old with active := false },Database.deployment_putDeployment db other d',?_,rfl,rfl,rfl⟩
      rw [rows]
      exact List.mem_append_left _ (List.mem_map_of_mem member)
    · exact ⟨e,old,(Database.deployment_putDeployment_other db d' same).trans there,member,rfl,rfl,rfl⟩

/-- Each of the six requests keeps the invariant and leaves what was stored as it was. -/
theorem run_sound {call : Call} {db next : Database} (done : call.run setting db = .ok next) (sound : db.Sound) :
    next.Sound ∧ Extends db next := by
  obtain ⟨request,now⟩ := call
  cases request with
  | register r admitted =>
    obtain ⟨⟨_,d⟩,run,rfl⟩ := map_eq_ok.mp done
    exact registered_sound sound run
  | update u admitted =>
    obtain ⟨⟨_,d⟩,run,rfl⟩ := map_eq_ok.mp done
    exact updated_sound sound run
  | publish p admitted =>
    obtain ⟨⟨_,row⟩,run,rfl⟩ := map_eq_ok.mp done
    exact published_sound sound run
  | disable connectorKey version reason =>
    obtain ⟨⟨_,row⟩,run,rfl⟩ := map_eq_ok.mp done
    exact disabled_sound sound run
  | createDeployment deploymentKey displayName description admitted =>
    obtain ⟨⟨_,d⟩,run,rfl⟩ := map_eq_ok.mp done
    exact deployed_sound sound run
  | createSnapshot deploymentKey selections createdBy signingKey =>
    obtain ⟨⟨_,row⟩,run,rfl⟩ := map_eq_ok.mp done
    exact snapshotted_sound sound run

variable (setting) in
theorem after_sound (call : Call) {db : Database} (sound : db.Sound) :
    (call.after setting db).Sound ∧ Extends db (call.after setting db) := by
  unfold Call.after
  split
  next next done => exact run_sound done sound
  next => exact ⟨sound,Extends.refl db⟩

variable (setting) in
theorem runCalls_sound (calls : List Call) {db : Database} (sound : db.Sound) :
    (runCalls setting db calls).Sound ∧ Extends db (runCalls setting db calls) := by
  induction calls generalizing db with
  | nil => exact ⟨sound,Extends.refl db⟩
  | cons call rest ih =>
    obtain ⟨step,first⟩ := after_sound setting call sound
    obtain ⟨kept,later⟩ := ih step
    exact ⟨kept,first.trans later⟩

/-- The call commits a snapshot with this content, whose versions were all enabled then. -/
structure Creates (setting : Setting) (db : Database) (call : Call) (key : Str) (row : SnapshotRow) : Prop where
  fresh : ∀ d, db.deployment key = some d → row.revision ∉ d.snapshots.map SnapshotRow.revision
  exists_row : ∃ next d made, call.run setting db = .ok next ∧ next.deployment key = some d ∧ made ∈ d.snapshots ∧
    made.revision = row.revision ∧ made.document = row.document
  exists_enabled : ∃ documents : List Dict, Dict.get row.document "connectors" = .list (documents.map .dict) ∧
    ∀ document ∈ documents, Enabled db document

/-- The deployment had a snapshot of this revision and content. -/
def Held (db : Database) (key : Str) (row : SnapshotRow) : Prop :=
  ∃ d old, db.deployment key = some d ∧ old ∈ d.snapshots ∧ old.revision = row.revision ∧ old.document = row.document

theorem held_or_creates {call : Call} {db next : Database} {key : Str} {d : Deployment} {row : SnapshotRow}
    (sound : db.Sound) (done : call.run setting db = .ok next) (found : next.deployment key = some d)
    (member : row ∈ d.snapshots) : Held db key row ∨ Creates setting db call key row := by
  have ran := done
  obtain ⟨request,now⟩ := call
  cases request with
  | register r admitted =>
    obtain ⟨⟨_,draft⟩,run,rfl⟩ := map_eq_ok.mp done
    obtain ⟨_,_,_,_,_,_,_,_,_,_,_,_,_,rfl⟩ := (registerConnector_eq_ok run).exists_analysis
    exact Or.inl ⟨d,row,found,member,rfl,rfl⟩
  | update u admitted =>
    obtain ⟨⟨_,draft⟩,run,rfl⟩ := map_eq_ok.mp done
    obtain ⟨_,_,_,_,_,_,_,_,_,_,_,rfl⟩ := (updateReview_eq_ok run).exists_draft
    exact Or.inl ⟨d,row,found,member,rfl,rfl⟩
  | publish p admitted =>
    obtain ⟨⟨_,version⟩,run,rfl⟩ := map_eq_ok.mp done
    obtain ⟨_,_,_,_,_,_,_,_,_,_,rfl⟩ := (publishDraft_eq_ok setting.engine run).exists_draft
    exact Or.inl ⟨d,row,found,member,rfl,rfl⟩
  | disable connectorKey version reason =>
    obtain ⟨⟨_,version⟩,run,rfl⟩ := map_eq_ok.mp done
    rcases disableVersion_eq_ok run with rfl | ⟨_,_,_,_,_,rfl⟩
    · exact Or.inl ⟨d,row,found,member,rfl,rfl⟩
    · exact Or.inl ⟨d,row,found,member,rfl,rfl⟩
  | createDeployment deploymentKey displayName description admitted =>
    obtain ⟨⟨_,made⟩,run,rfl⟩ := map_eq_ok.mp done
    obtain ⟨empty,rfl⟩ := createDeployment_eq_ok run
    by_cases same : key = deploymentKey
    · subst same
      rw [Database.deployment_putDeployment] at found
      cases found
      rw [empty] at member
      cases member
    · rw [Database.deployment_putDeployment_other db made same] at found
      exact Or.inl ⟨d,row,found,member,rfl,rfl⟩
  | createSnapshot deploymentKey selections createdBy signingKey =>
    obtain ⟨⟨_,made⟩,run,rfl⟩ := map_eq_ok.mp done
    obtain ⟨_,enabled⟩ := createSnapshot_row sound run
    obtain ⟨before,d',_,_,_,_,stored,_,_,_,_,_,_,_,inserted,rfl⟩ := (createSnapshot_eq_ok run).exists_document
    have rows := insertSnapshot_eq_ok inserted
    by_cases same : key = deploymentKey
    · subst same
      have here := found
      rw [Database.deployment_putDeployment] at found
      cases found
      rw [rows] at member
      rcases List.mem_append.mp member with old | new
      · obtain ⟨previous,inside,rfl⟩ := List.mem_map.mp old
        exact Or.inl ⟨before,previous,stored,inside,rfl,rfl⟩
      · rw [List.mem_singleton.mp new]
        refine Or.inr ⟨fun e there => ?_,⟨_,_,made,ran,here,?_,rfl,rfl⟩,enabled⟩
        · rw [stored] at there
          cases there
          unfold Deployment.insertSnapshot at inserted
          split at inserted
          next => cases inserted
          next unused => exact unused
        · rw [rows]
          exact List.mem_append_right _ (List.mem_singleton_self made)
    · rw [Database.deployment_putDeployment_other db d' same] at found
      exact Or.inl ⟨d,row,found,member,rfl,rfl⟩

theorem Creates.congr {db : Database} {call : Call} {key : Str} {old row : SnapshotRow} (creates : Creates setting db call key old)
    (revision : old.revision = row.revision) (document : old.document = row.document) : Creates setting db call key row := by
  obtain ⟨fresh,⟨next,d,made,run,found,member,same,content⟩,enabled⟩ := creates
  rw [revision] at fresh same
  rw [document] at content enabled
  exact ⟨fresh,⟨next,d,made,run,found,member,same,content⟩,enabled⟩

/-- Every stored snapshot was created by one call of the run. -/
theorem exists_creates (calls : List Call) {key : Str} {d : Deployment} {row : SnapshotRow}
    (found : (runCalls setting Database.empty calls).deployment key = some d) (member : row ∈ d.snapshots) :
    ∃ front call back, calls = front ++ call::back ∧ Creates setting (runCalls setting Database.empty front) call key row := by
  induction calls using List.reverseRecOn generalizing d row with
  | nil => cases found
  | append_singleton front call ih =>
    have sound := (runCalls_sound setting front Database.Sound.empty).1
    have earlier : Held (runCalls setting Database.empty front) key row → ∃ front' call' back,
        front ++ [call] = front' ++ call'::back ∧ Creates setting (runCalls setting Database.empty front') call' key row := by
      rintro ⟨before,old,there,inside,revision,document⟩
      obtain ⟨front',call',back,rfl,creates⟩ := ih there inside
      exact ⟨front',call',back ++ [call],by simp,creates.congr revision document⟩
    rw [runCalls_append,runCalls_cons,runCalls_nil,Call.after] at found
    split at found
    next next done =>
      rcases held_or_creates sound done found member with held | creates
      · exact earlier held
      · exact ⟨front,call,[],rfl,creates⟩
    next => exact earlier ⟨d,row,found,member,rfl,rfl⟩

/-- The store after a run from nothing: what each row promises, and that nothing committed
on the way has changed. -/
structure Lifecycle (setting : Setting) (calls : List Call) (db : Database) : Prop where
  digests : ∀ key version row, getVersion db key version = .ok row →
    contentDigest row.document [] = .ok row.documentDigest
  increasing : ∀ key c, db.connector key = some c → c.publishedVersions.Pairwise Ordered
  oneDraft : ∀ key d e, storedDraft db key = some d → storedDraft db key = some e → d = e
  sequence : ∀ key d, db.deployment key = some d → InSequence d.snapshots
  sealed : ∀ key d row, db.deployment key = some d → row ∈ d.snapshots → row.Sealed
  created : ∀ key d row, db.deployment key = some d → row ∈ d.snapshots → ∃ front call back,
    calls = front ++ call::back ∧ Creates setting (runCalls setting Database.empty front) call key row
  unchanged : ∀ front back, calls = front ++ back → Extends (runCalls setting Database.empty front) db

theorem lifecycle (setting : Setting) (calls : List Call) :
    Lifecycle setting calls (runCalls setting Database.empty calls) := by
  obtain ⟨sound,_⟩ := runCalls_sound setting calls Database.Sound.empty
  refine ⟨fun key version row found => (getVersion_sealed sound found).digest,
    fun key c found => (sound.connectors key c found).increasing,?_,
    fun key d found => (sound.deployments key d found).sequence,
    fun key d row found member => (sound.deployments key d found).sealed row member,
    fun key d row found member => exists_creates calls found member,?_⟩
  · intro key d e first second
    exact Option.some.inj (first.symm.trans second)
  · rintro front back rfl
    rw [runCalls_append]
    exact (runCalls_sound setting back (runCalls_sound setting front Database.Sound.empty).1).2

end Runs

end ToolLayer.ControlPlane
