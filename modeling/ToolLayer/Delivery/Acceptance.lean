import ToolLayer.ControlPlane.Readable
import ToolLayer.ControlPlane.Revisions
import ToolLayer.Runtime.Index
import ToolLayer.Runtime.Refresh

/-! What the Runtime makes of the snapshots the Control Plane creates. -/
namespace ToolLayer.Delivery
open Python Kit Kit.Result ControlPlane ToolLayer.Runtime

/-- `Settings.signing_key()`, from the two environment variables that `from_env` strips. -/
def signingKeyFromEnv (signingKeyId signingKey : Str) : Except PyExc (Option SigningKey) :=
  let encoded := Str.strip signingKey
  if encoded.isEmpty then .ok none else (SigningKey.fromEncoded (Str.strip signingKeyId) encoded).map some

section Texts

theorem getLast_strip (s : Str) : (Str.strip s).getLast? ≠ some (CodePoint.ofChar '\n') := by
  intro ends
  unfold Str.strip Str.rstrip at ends
  rw [List.getLast?_reverse] at ends
  have blank := List.head?_dropWhile_not CodePoint.isSpace (Str.lstrip CodePoint.isSpace s).reverse
  rw [ends] at blank
  exact absurd blank (by decide)

theorem keyId_of_fromEnv {signingKeyId signingKey : Str} {key : SigningKey}
    (configured : signingKeyFromEnv signingKeyId signingKey = .ok (some key)) : Patterns.keyId key.keyId = true := by
  unfold signingKeyFromEnv at configured
  dsimp only at configured
  split at configured
  next => cases configured
  next =>
    obtain ⟨made,encoded,same⟩ := map_eq_ok.mp configured
    cases same
    obtain ⟨raw,_,encoded⟩ := bind_eq_ok.mp encoded
    obtain ⟨named,_,encoded⟩ := bind_eq_ok.mp encoded
    cases encoded
    exact settled_of_last (getLast_strip signingKeyId) named.down

end Texts

section Pinned

variable [Pydantic] [Unicode]

/-- The selected versions, in the order they were selected: enabled, and read by the models. -/
def Pins (db : Database) (selection : SnapshotSelection) (document : Dict) : Prop :=
  ∃ row connector, getVersion db selection.connectorKey selection.version = .ok row ∧ row.document = document ∧
    row.disabled = false ∧ ConnectorDefinition.modelValidate (.dict document) = .ok connector

theorem pinned_eq_ok {db : Database} {selections : List SnapshotSelection} {s t : List Str × List Dict}
    (done : loop (selectVersion db) s selections = .ok t) :
    ∃ more, t.2 = s.2 ++ more ∧ List.Forall₂ (Pins db) selections more := by
  induction selections generalizing s with
  | nil =>
    cases done
    exact ⟨[],(List.append_nil _).symm,.nil⟩
  | cons selection rest ih =>
    obtain ⟨u,first,tail⟩ := loop_cons_eq_ok.mp done
    obtain ⟨row,model,_,found,enabled,valid,rfl⟩ := selectVersion_eq_ok first
    obtain ⟨more,grown,pins⟩ := ih tail
    refine ⟨row.document::more,?_,.cons ⟨row,model,found,rfl,enabled,valid⟩ pins⟩
    rw [grown]
    exact (List.append_cons _ _ _).symm

/-- Every stored deployment has a key its route admitted. -/
theorem deploymentKey_of_reachable {setting : Setting} {db : Database} (reached : Reachable setting db) :
    ∀ key d, db.deployment key = some d → resourceKey key = true := by
  refine reachable_keeps setting (fun db => ∀ key d, db.deployment key = some d → resourceKey key = true)
    (fun _ _ found => (nomatch found)) ?_ reached
  intro before after call kept done
  obtain ⟨request,now⟩ := call
  cases request with
  | register r admitted =>
    obtain ⟨⟨_,d⟩,run,rfl⟩ := map_eq_ok.mp done
    obtain ⟨_,_,_,_,_,_,_,_,_,_,_,_,_,rfl⟩ := (registerConnector_eq_ok run).exists_analysis
    exact kept
  | update u admitted =>
    obtain ⟨⟨_,d⟩,run,rfl⟩ := map_eq_ok.mp done
    obtain ⟨_,_,_,_,_,_,_,_,_,_,_,rfl⟩ := (updateReview_eq_ok run).exists_draft
    exact kept
  | publish p admitted =>
    obtain ⟨⟨_,row⟩,run,rfl⟩ := map_eq_ok.mp done
    obtain ⟨_,_,_,_,_,_,_,_,_,_,rfl⟩ := (publishDraft_eq_ok setting.engine run).exists_draft
    exact kept
  | disable connectorKey version reason =>
    obtain ⟨⟨_,row⟩,run,rfl⟩ := map_eq_ok.mp done
    rcases disableVersion_eq_ok run with rfl | ⟨_,_,_,_,_,rfl⟩
    · exact kept
    · exact kept
  | createDeployment deploymentKey displayName description admitted =>
    obtain ⟨⟨_,d⟩,run,rfl⟩ := map_eq_ok.mp done
    obtain ⟨_,rfl⟩ := createDeployment_eq_ok run
    intro key d' found
    by_cases same : key = deploymentKey
    · exact same ▸ admitted
    · rw [Database.deployment_putDeployment_other before d same] at found
      exact kept key d' found
  | createSnapshot deploymentKey selections createdBy signingKey =>
    obtain ⟨⟨_,row⟩,run,rfl⟩ := map_eq_ok.mp done
    obtain ⟨d,d',_,_,_,_,stored,_,_,_,_,_,_,_,_,rfl⟩ := (createSnapshot_eq_ok run).exists_document
    intro key e found
    by_cases same : key = deploymentKey
    · exact same ▸ kept deploymentKey d stored
    · rw [Database.deployment_putDeployment_other before d' same] at found
      exact kept key e found

end Pinned

section Reading

theorem exists_signature {key : SigningKey} {signature : Bytes} (named : Patterns.keyId key.keyId = true)
    (sized : signature.length = signatureBytes) :
    ∃ block, SnapshotSignature.read (signatureBlock key signature) = some block := by
  have length := named
  simp only [Patterns.keyId,Bool.and_eq_true,decide_eq_true_eq] at length
  obtain ⟨⟨⟨⟨least,most⟩,_⟩,_⟩,_⟩ := length
  have bounded : boundedText 2 64 key.keyId = true := by
    simp [boundedText,Pydantic.constrainedText,scalar_isKeyId key.named,least,most]
  have accepted : SnapshotSignature.Accepts key.keyId (b64uEncode signature) :=
    ⟨bounded,named,scalar_b64uEncode signature,signatureValue_b64uEncode sized⟩
  refine ⟨⟨key.keyId,b64uEncode signature,accepted⟩,?_⟩
  unfold SnapshotSignature.read signatureBlock
  rw [Read.members_of_subset (by simp [SnapshotSignature.fields])]
  have algorithm : Read.literal id ["ed25519"] (.str signatureAlgorithm) = some signatureAlgorithm := by decide
  simp [Read.field,Read.text,algorithm,toOption_validated accepted]

theorem tuple_of_forall₂ {M : Type} {read : Value → Option M} {items : List Value} {out : List M}
    (each_ : List.Forall₂ (fun item m => read item = some m) items out) : Read.tuple read (.list items) = some out := by
  rw [Read.tuple]
  exact mapM_eq_some.mpr each_

variable [Pydantic] [Unicode]

/-- A signed snapshot document is read, with the connectors its documents are read as. -/
theorem exists_snapshot {key : SigningKey} {signature : Bytes} {deploymentKey : Str} {revision : Nat}
    {documents : List Dict} {connectors : List ConnectorDefinition} (now : Timestamp) (snapshotId digest : Str)
    (named : Patterns.keyId key.keyId = true) (sized : signature.length = signatureBytes)
    (identified_ : (Pydantic.constrainedText snapshotId && Patterns.snapshotId snapshotId) = true)
    (digested : isDigest digest = true) (keyed : resourceKey deploymentKey = true) (positive : 1 ≤ revision)
    (read : List.Forall₂ (fun document c => ConnectorDefinition.modelValidate (.dict document) = .ok c) documents connectors)
    (distinct : (connectors.map ConnectorDefinition.connectorKey).Nodup)
    (published : ∀ c ∈ connectors, c.lifecycleState = .published) :
    ∃ snapshot, DeploymentSnapshot.modelValidate (.dict (Dict.set
      (identified (snapshotPayload deploymentKey revision now documents) snapshotId digest) signatureField
      (signatureBlock key signature))) = .ok snapshot ∧ snapshot.connectors = connectors := by
  obtain ⟨block,signed⟩ := exists_signature named sized
  have listed : Read.tuple ConnectorDefinition.read (.list (documents.map .dict)) = some connectors := by
    refine tuple_of_forall₂ (List.forall₂_map_left_iff.mpr (read.imp (fun document c valid => ?_)))
    unfold ConnectorDefinition.modelValidate at valid
    split at valid
    next found => exact Except.ok.inj valid ▸ found
    next => cases valid
  have accepted : DeploymentSnapshot.Accepts contractVersion snapshotId deploymentKey revision now.rfc3339 digest connectors :=
    ⟨by decide,identified_,keyed,by exact_mod_cast positive,Pydantic.plainText_scalar _ now.scalar_rfc3339,digested,distinct,
      published⟩
  have signature_ : Read.nullable SnapshotSignature.read (signatureBlock key signature) = some (some block) :=
    Read.nullable_eq_some signed (by simp [signatureBlock])
  refine ⟨⟨contractVersion,snapshotId,deploymentKey,revision,now.rfc3339,digest,connectors,some block,accepted⟩,?_,rfl⟩
  have whole : DeploymentSnapshot.read (.dict [("contract_version",.str contractVersion),("deployment_key",.str deploymentKey),
      ("revision",.int revision),("created_at",.str now.rfc3339),("connectors",.list (documents.map .dict)),
      ("snapshot_id",.str snapshotId),("snapshot_digest",.str digest),(signatureField,signatureBlock key signature)]) =
      some ⟨contractVersion,snapshotId,deploymentKey,revision,now.rfc3339,digest,connectors,some block,accepted⟩ := by
    unfold DeploymentSnapshot.read
    rw [Read.members_of_subset (by simp [DeploymentSnapshot.fields,signatureField])]
    simp [signatureField,Read.field,Read.text,Dict.get,listed,Pydantic.laxInt_int,signature_,toOption_validated accepted]
  have read_ : DeploymentSnapshot.read (.dict (Dict.set
      (identified (snapshotPayload deploymentKey revision now documents) snapshotId digest) signatureField
      (signatureBlock key signature))) = _ := whole
  unfold DeploymentSnapshot.modelValidate
  rw [read_]

/-- What a connector document says of itself, as the models read it. -/
theorem modelValidate_members {document : Dict} {c : ConnectorDefinition}
    (valid : ConnectorDefinition.modelValidate (.dict document) = .ok c) :
    documentKey document = c.connectorKey ∧
      (Dict.get document "lifecycle_state" = .str "published" → c.lifecycleState = .published) := by
  unfold ConnectorDefinition.modelValidate at valid
  split at valid
  next found read =>
    cases valid
    simp only [ConnectorDefinition.read,Option.bind_eq_bind,Option.bind_eq_some_iff] at read
    obtain ⟨d,members,_,_,key,keyed,_,_,_,_,_,_,state,stated,_,_,_,_,_,_,_,_,_,_,built⟩ := read
    cases (Read.members_eq_some members).1
    obtain ⟨_,rfl⟩ := validated_eq_ok.mp (toOption_eq_some.mp built)
    obtain ⟨value,there,text⟩ := Read.field_eq_some keyed
    obtain ⟨value',there',literal⟩ := Read.field_eq_some stated
    constructor
    · have same : value = .str key := by cases value <;> simp_all [Read.text]
      rw [documentKey,Dict.get,there,same]
      rfl
    · intro published
      rw [Dict.get,there'] at published
      change value' = .str "published" at published
      rw [published] at literal
      have only : Read.literal LifecycleState.text [.draft,.published,.disabled] (.str "published") =
          some .published := by decide
      rw [only] at literal
      exact (Option.some.inj literal).symm
  next => cases valid

omit [Pydantic] in
/-- A snapshot document that passes its validation has published connectors. -/
theorem published_of_valid {engine : SchemaEngine} {document : Dict} {documents : List Dict}
    (valid : validateDeploymentSnapshot engine (.dict document) = .ok ())
    (listed : Dict.get document "connectors" = .list (documents.map .dict)) :
    ∀ d ∈ documents, Dict.get d "lifecycle_state" = .str "published" := by
  obtain ⟨members,connectors,seen,versioned,_,found,looped⟩ := (validateDeploymentSnapshot_eq_ok engine).mp valid
  have same : members = document := by
    unfold requireContractVersion at versioned
    dsimp only at versioned
    split at versioned
    next => exact (Except.ok.inj versioned).symm
    next => cases versioned
    next => cases versioned
  rw [same] at found
  rw [Dict.get,found] at listed
  cases Value.list.inj listed
  intro d member
  obtain ⟨i,bound,there⟩ := List.mem_iff_getElem.mp (List.mem_map_of_mem (f := Value.dict) member)
  have inside : (Value.dict d,i) ∈ (documents.map Value.dict).zipIdx :=
    List.mk_mem_zipIdx_iff_getElem?.mpr (there ▸ List.getElem?_eq_getElem bound)
  obtain ⟨_,_,step⟩ := step_of_loop looped inside
  unfold validateConnector at step
  obtain ⟨connector,object,step⟩ := bind_eq_ok.mp step
  cases object
  obtain ⟨_,_,step⟩ := bind_eq_ok.mp step
  obtain ⟨_,step⟩ := refuse_bind_eq_ok.mp step
  obtain ⟨state,stated,step⟩ := bind_eq_ok.mp step
  obtain ⟨published,_⟩ := refuse_bind_eq_ok.mp step
  rw [Dict.get,item_eq_ok.mp stated]
  change state = .str "published"
  cases state <;> simp_all [Value.pyEq]

end Reading

section Handover

variable [Pydantic] [Unicode]

omit [Pydantic] in
/-- The signature of a created document verifies with the key's public half. -/
theorem vouches_created {scheme : Ed25519} (correct : scheme.Correct) {key : SigningKey} {ring : TrustedKeyRing}
    (trusted : key.verifyingKey scheme ∈ ring.keys) {payload : Dict} {snapshotId digest : Str} {message : Bytes}
    (input : signingInput (Dict.set (identified payload snapshotId digest) signatureField
      (signatureBlock key (scheme.sign key.private_ message))) = .ok message) :
    Vouches scheme (Dict.set (identified payload snapshotId digest) signatureField
      (signatureBlock key (scheme.sign key.private_ message)))
      [("algorithm",.str signatureAlgorithm),("key_id",.str key.keyId),
        ("value",.str (b64uEncode (scheme.sign key.private_ message)))] ring (key.verifyingKey scheme)
      (scheme.sign key.private_ message) where
  algorithm := by simp [Dict.get,Value.pyEq]
  named := rfl
  trusted := trusted
  exists_value := by
    have size := correct.sized key.private_ message
    refine ⟨_,rfl,?_⟩
    rw [← size]
    refine b64uDecode_encode (fun empty => ?_)
    rw [empty] at size
    cases size
  exists_message := by
    refine ⟨message,input,?_⟩
    rw [VerifyingKey.verify,Bool.and_eq_true,decide_eq_true_eq]
    exact ⟨correct.sized _ _,correct.verifies _ _⟩

/-- A created snapshot as the Runtime finds it, up to the index. -/
structure Verifies (setting : Setting) (db : Database) (ring : TrustedKeyRing) (selections : List SnapshotSelection)
    (row : SnapshotRow) (snapshot : DeploymentSnapshot) : Prop where
  exists_pinned : ∃ pinned documents : List Dict, List.Forall₂ (Pins db) selections pinned ∧ documents.Perm pinned ∧
    Dict.get row.document "connectors" = .list (documents.map .dict) ∧
    List.Forall₂ (fun document c => ConnectorDefinition.modelValidate (.dict document) = .ok c) documents snapshot.connectors
  validated : DeploymentSnapshot.modelValidate (.dict row.document) = .ok snapshot
  verified : ∃ keyId, Verified setting.scheme setting.engine ⟨.required,ring⟩ row.document keyId
  revalidated : ∀ c ∈ snapshot.connectors, revalidate c = .ok ()

theorem verifies_created (setting : Setting) (correct : setting.scheme.Correct) {db next : Database}
    (reached : Reachable setting db) {signingKeyId signingKey : Str} {key : SigningKey}
    (configured : signingKeyFromEnv signingKeyId signingKey = .ok (some key)) {ring : TrustedKeyRing}
    (trusted : key.verifyingKey setting.scheme ∈ ring.keys) {deploymentKey createdBy : Str}
    {selections : List SnapshotSelection} {now : Timestamp} {row : SnapshotRow}
    (created : createSnapshot setting.scheme setting.engine db deploymentKey selections createdBy (some key) now =
      .ok (next,row)) : ∃ snapshot, Verifies setting db ring selections row snapshot := by
  have keyed := deploymentKey_of_reachable reached
  obtain ⟨calls,rfl⟩ := reached
  have sound := (runCalls_sound setting calls Database.Sound.empty).1
  have sealed := (createSnapshot_row sound created).1
  obtain ⟨d,snapshots,seen,pinned,document,digest,found,selection,built,valid,stored,_,declared,_⟩ :=
    (createSnapshot_eq_ok created).exists_document
  have chosen := selected sound selection
  have reordered : (sortDocuments pinned).Perm pinned := List.perm_insertionSort _ _
  obtain ⟨more,all_,pins⟩ := pinned_eq_ok selection
  rw [List.nil_append] at all_
  subst all_
  rw [reload_snapshotDocument built (distinct_snapshotPayload _ _ _
    (fun document member => chosen.distinct document (reordered.mem_iff.mp member)))] at stored
  obtain ⟨listed,named,content⟩ := snapshotDocument_members deploymentKey (nextRevision d) now (sortDocuments pinned) rfl built
  -- The models read every pinned document, and find it published.
  have readable : ∀ document ∈ sortDocuments pinned, ∃ c, ConnectorDefinition.modelValidate (.dict document) = .ok c := by
    intro document member
    obtain ⟨s,_,row,c,_,_,_,valid⟩ := exists_left pins (reordered.mem_iff.mp member)
    exact ⟨c,valid⟩
  obtain ⟨connectors,read⟩ := each_of_forall readable
  have related := each_eq_ok.mp read
  have states : ∀ c ∈ connectors, c.lifecycleState = .published := by
    intro c member
    obtain ⟨document,inside,valid_⟩ := exists_left related member
    exact (modelValidate_members valid_).2 (published_of_valid valid listed document inside)
  have keys : (sortDocuments pinned).map documentKey = connectors.map ConnectorDefinition.connectorKey := by
    rw [← List.forall₂_eq_eq_eq,List.forall₂_map_left_iff,List.forall₂_map_right_iff]
    exact related.imp (fun _ _ valid => (modelValidate_members valid).1)
  have once : (connectors.map ConnectorDefinition.connectorKey).Nodup := by
    rw [← keys,(reordered.map documentKey).nodup_iff,chosen.keys]
    exact chosen.once
  obtain ⟨taken,⟨data,idEq⟩,form⟩ := snapshotDocument_eq_ok built
  rcases form with ⟨unsigned_,_⟩ | ⟨_,message,same,input,shape⟩
  · cases unsigned_
  cases same
  obtain ⟨bytes,_,hashed⟩ := bind_eq_ok.mp taken
  cases hashed
  have identity : (Pydantic.constrainedText row.snapshotId && Patterns.snapshotId row.snapshotId) = true := by
    rw [idEq,Bool.and_eq_true]
    exact ⟨scalar_snapshotId data,snapshotId_of_hexdigest data⟩
  have positive : 1 ≤ nextRevision d := Nat.le_add_right 1 _
  obtain ⟨snapshot,validated,embedded⟩ := exists_snapshot now row.snapshotId (digestOf bytes)
    (keyId_of_fromEnv configured) (correct.sized key.private_ message) identity (isDigest_digestOf bytes)
    (keyed deploymentKey d found) positive related once states
  rw [← shape] at validated
  subst embedded
  obtain ⟨tagged,digested⟩ := verifyDigest_eq_true.mp sealed.verifies
  rw [stored,declared] at digested
  rw [declared] at tagged
  -- Schema, digest and signature hold of the document as they did when it was made.
  have verified : Verified setting.scheme setting.engine ⟨.required,ring⟩ document (some key.keyId) := by
    refine ⟨?_,valid,⟨.str (digestOf bytes),digestOf bytes,?_,rfl,tagged,digested⟩,?_⟩
    · rw [shape]
      rfl
    · rw [shape]
      rfl
    · refine authenticate_eq_ok.mpr ⟨key.keyId,rfl,(verifyDocument_eq_ok _).mpr ⟨_,?_,(verifyBlock_eq_ok _).mpr
        ⟨key.verifyingKey setting.scheme,_,rfl,shape ▸ vouches_created correct trusted ?_⟩⟩⟩
      · rw [shape]
        rfl
      · exact input
  have revalidated : ∀ c ∈ snapshot.connectors, revalidate c = .ok () := by
    refine revalidate_total digested ?_
    unfold DeploymentSnapshot.modelValidate at validated
    split at validated
    next found read => exact Except.ok.inj validated ▸ read
    next => cases validated
  exact ⟨snapshot,⟨⟨pinned,sortDocuments pinned,pins,reordered,stored ▸ listed,related⟩,stored ▸ validated,
    ⟨_,stored ▸ verified⟩,revalidated⟩⟩

/-- Only the index can still refuse it. -/
theorem load_of_verifies {setting : Setting} {db : Database} {ring : TrustedKeyRing} {selections : List SnapshotSelection}
    {row : SnapshotRow} {snapshot : DeploymentSnapshot} (verifies : Verifies setting db ring selections row snapshot)
    (etag : Option Str) (loadedAt : Rat) :
    (Apart snapshot.connectors → ∃ loaded,
      loadSnapshotDocument setting.scheme setting.engine ⟨.required,ring⟩ (.dict row.document) etag loadedAt = .ok loaded ∧
      loaded.snapshot = snapshot ∧
      ∀ c ∈ snapshot.connectors, ∀ t ∈ c.tools, loaded.resolve t.toolName = .ok (bound c t)) ∧
    (¬ Apart snapshot.connectors →
      loadSnapshotDocument setting.scheme setting.engine ⟨.required,ring⟩ (.dict row.document) etag loadedAt =
        .error sharedToolName) := by
  obtain ⟨keyId,verified⟩ := verifies.verified
  rcases indexOf_cases snapshot with ⟨apart,index,indexed,tools⟩ | ⟨shared,refused⟩
  · refine ⟨fun _ => ⟨⟨snapshot,etag,loadedAt,index,keyId⟩,?_,rfl,?_⟩,fun not => absurd apart not⟩
    · exact loadSnapshotDocument_eq_ok.mpr ⟨row.document,rfl,⟨verified,verifies.validated,verifies.revalidated,indexed⟩,
        rfl,rfl⟩
    · intro c member t inside
      have there : bound c t ∈ index.tools := by
        rw [tools,List.mem_flatMap]
        exact ⟨c,member,List.mem_map_of_mem inside⟩
      rw [LoadedSnapshot.resolve,show t.toolName = (bound c t).toolName from rfl,find_of_mem there]
  · refine ⟨fun apart => absurd apart shared,fun _ => ?_⟩
    rw [loadSnapshotDocument,verifySnapshot_eq_ok.mpr verified,ok_bind,verifies.validated,ok_bind,
      loop_unit_eq_ok.mpr verifies.revalidated,ok_bind,refused]
    rfl

/-- A created snapshot at the Runtime: read with the pinned connectors, and loaded unless two
of them share a tool name. -/
structure HandedOver (setting : Setting) (db : Database) (ring : TrustedKeyRing) (selections : List SnapshotSelection)
    (row : SnapshotRow) : Prop where
  exists_snapshot : ∃ (pinned documents : List Dict) (snapshot : DeploymentSnapshot),
    List.Forall₂ (Pins db) selections pinned ∧ documents.Perm pinned ∧
    Dict.get row.document "connectors" = .list (documents.map .dict) ∧
    DeploymentSnapshot.modelValidate (.dict row.document) = .ok snapshot ∧
    List.Forall₂ (fun document c => ConnectorDefinition.modelValidate (.dict document) = .ok c) documents
      snapshot.connectors ∧
    ∀ etag loadedAt,
      (Apart snapshot.connectors → ∃ loaded,
        loadSnapshotDocument setting.scheme setting.engine ⟨.required,ring⟩ (.dict row.document) etag loadedAt = .ok loaded ∧
        loaded.snapshot = snapshot ∧
        ∀ c ∈ snapshot.connectors, ∀ t ∈ c.tools, loaded.resolve t.toolName = .ok (bound c t)) ∧
      (¬ Apart snapshot.connectors →
        loadSnapshotDocument setting.scheme setting.engine ⟨.required,ring⟩ (.dict row.document) etag loadedAt =
          .error sharedToolName)

/-- The Runtime takes every snapshot the Control Plane creates, unless two of the pinned
connectors share a tool name. -/
theorem load_created (setting : Setting) (correct : setting.scheme.Correct) {db next : Database}
    (reached : Reachable setting db) {signingKeyId signingKey : Str} {key : SigningKey}
    (configured : signingKeyFromEnv signingKeyId signingKey = .ok (some key)) {ring : TrustedKeyRing}
    (trusted : key.verifyingKey setting.scheme ∈ ring.keys) {deploymentKey createdBy : Str}
    {selections : List SnapshotSelection} {now : Timestamp} {row : SnapshotRow}
    (created : createSnapshot setting.scheme setting.engine db deploymentKey selections createdBy (some key) now =
      .ok (next,row)) : HandedOver setting db ring selections row := by
  obtain ⟨snapshot,verifies⟩ := verifies_created setting correct reached configured trusted created
  obtain ⟨pinned,documents,pins,reordered,listed,related⟩ := verifies.exists_pinned
  exact ⟨pinned,documents,snapshot,pins,reordered,listed,verifies.validated,related,load_of_verifies verifies⟩

end Handover

section Desk

local instance counterTables : Unicode := Unicode.asciiOnly
local instance counterFields : Pydantic := Pydantic.exact

theorem correct_deskScheme : deskScheme.Correct where
  verifies _ _ := rfl
  sized _ _ := List.length_replicate

def deskSeed : Str := "AAAAAAAAAAAAAAAAAAAAAAAAAAAAAAAAAAAAAAAAAAA"

def deskSigningKey : SigningKey := ⟨"cp-1",List.replicate keyBytes 0,by decide⟩

theorem deskSigningKey_fromEnv : signingKeyFromEnv "cp-1" deskSeed = .ok (some deskSigningKey) := rfl

def deskRing : TrustedKeyRing := ⟨[deskSigningKey.verifyingKey deskScheme],by decide⟩

def deskDeploy : Call := ⟨.createDeployment "prod" "Production" "" (by decide),deskTime⟩

/-- One connector published, and a deployment. -/
def deskStore : Database := runCalls desk Database.empty [deskRegisterOld,deskPublish,deskDeploy]

def deskSelection : SnapshotSelection := ⟨deskKey,"0.1.0"⟩

theorem issuable_desk {d : Deployment} (fresh : d.snapshots = []) :
    Issuable deskScheme desk.engine "prod" "admin" d (some deskSigningKey) deskTime where
  sized := correct_deskScheme.sized
  keyed := by decide
  counted := by
    rw [nextRevision,fresh]
    decide
  dated := rfl
  named _ same := Option.some.inj same ▸ keyId_of_fromEnv deskSigningKey_fromEnv
  requested := by decide

/-- A deployment without snapshots, and versions on the old origin to pin in it. -/
def Offers (db : Database) (selections : List SnapshotSelection) : Prop :=
  ∃ d rows, db.deployment "prod" = some d ∧ d.snapshots = [] ∧ db.snapshotIds = [] ∧
    List.Forall₂ (fun (s : SnapshotSelection) row => getVersion db s.connectorKey s.version = .ok row ∧
      row.disabled = false ∧ originOf row.document = .str oldOrigin) selections rows

/-- A desk that offers its selections makes a snapshot of them. -/
theorem Offers.created {db : Database} {selections : List SnapshotSelection} (offers : Offers db selections)
    (reached : Reachable desk db) (once : (selections.map SnapshotSelection.connectorKey).Nodup)
    (few : selections.length ≤ 64) : ∃ next row, createSnapshot deskScheme desk.engine db "prod" selections "admin"
      (some deskSigningKey) deskTime = .ok (next,row) := by
  obtain ⟨d,rows,found,fresh,unused,stored⟩ := offers
  have sound : db.Sound := by
    obtain ⟨calls,rfl⟩ := reached
    exact (runCalls_sound desk calls Database.Sound.empty).1
  have pinnable := stored.imp (fun (s : SnapshotSelection) row facts =>
    pinnable_of_origin reached facts.1 facts.2.1 facts.2.2 (show reviewedOrigin oldOrigin = true by decide))
  obtain ⟨_,_,_,_,created⟩ := createSnapshot_total sound found (issuable_desk fresh) pinnable once few
  refine created.mpr ?_
  rw [unused]
  exact List.not_mem_nil

/-- The version of a selection, if the desk offers it. -/
def offered (db : Database) (s : SnapshotSelection) : Option PublishedVersion :=
  match getVersion db s.connectorKey s.version with
  | .ok row => if row.disabled || !(originOf row.document).pyEq (.str oldOrigin) then none else some row
  | .error _ => none

def unused (db : Database) : Bool :=
  db.snapshotIds.isEmpty && (db.deployment "prod").any (fun d => d.snapshots.isEmpty)

theorem offers_of_offered {db : Database} {selections : List SnapshotSelection} (free : unused db = true)
    (each : ∀ s ∈ selections, (offered db s).isSome = true) : Offers db selections := by
  rw [unused,Bool.and_eq_true,List.isEmpty_iff,Option.any_eq_true] at free
  obtain ⟨none_,d,found,fresh⟩ := free
  have rows : ∃ rows, List.Forall₂ (fun (s : SnapshotSelection) row => getVersion db s.connectorKey s.version = .ok row ∧
      row.disabled = false ∧ originOf row.document = .str oldOrigin) selections rows := by
    rw [exists_forall₂]
    intro s member
    obtain ⟨row,given⟩ := Option.isSome_iff_exists.mp (each s member)
    unfold offered at given
    split at given
    next row' stored =>
      split at given
      next => cases given
      next fits =>
        cases given
        rw [Bool.or_eq_true,not_or,Bool.not_eq_true,Bool.not_eq_true,Bool.not_eq_false'] at fits
        refine ⟨row,stored,fits.1,?_⟩
        have same := fits.2
        cases shape : originOf row.document <;> simp_all [Value.pyEq]
    next => cases given
  obtain ⟨rows,stored⟩ := rows
  exact ⟨d,rows,found,List.isEmpty_iff.mp fresh,none_,stored⟩

/-- The same description as another connector. -/
def shopRegister : Call := ⟨.register { deskRegistration oldOrigin with connectorKey := "shop" } (by decide +kernel),deskTime⟩

def shopPublish : Call := ⟨.publish { deskPublication with connectorKey := "shop" } (by decide),deskTime⟩

def pairedStore : Database :=
  runCalls desk Database.empty [deskRegisterOld,shopRegister,deskPublish,shopPublish,deskDeploy]

/-- The tool names a version's model lists. -/
def namesOf (row : PublishedVersion) : List Str :=
  match ConnectorDefinition.modelValidate (.dict row.document) with
  | .ok c => c.tools.map ToolDefinition.toolName
  | .error _ => []

def shopSelection : SnapshotSelection := ⟨"shop","0.1.0"⟩

theorem namesOf_of_offered {db : Database} {s : SnapshotSelection} {row : PublishedVersion} {names : List Str}
    (stored : getVersion db s.connectorKey s.version = .ok row) (listed : (offered db s).map namesOf = some names) :
    namesOf row = names := by
  unfold offered at listed
  rw [stored] at listed
  dsimp only at listed
  split at listed
  next => cases listed
  next =>
    rw [Option.map_some,Option.some.injEq] at listed
    exact listed

/-- The desk's stores, evaluated together. -/
def offersChecked : PLift ((unused deskStore && (offered deskStore deskSelection).isSome &&
    (unused pairedStore && decide ((offered pairedStore deskSelection).map namesOf = some [Str.lit "get_health"]) &&
      decide ((offered pairedStore shopSelection).map namesOf = some [Str.lit "get_health"]))) = true) :=
  ⟨by decide +kernel⟩

theorem deskStore_offers : Offers deskStore [deskSelection] := by
  have facts := (Bool.and_eq_true_iff.mp offersChecked.down).1
  rw [Bool.and_eq_true] at facts
  exact offers_of_offered facts.1 (List.forall_mem_singleton.mpr facts.2)

theorem load_created_desk : ∃ next row, createSnapshot deskScheme desk.engine deskStore "prod" [deskSelection]
    "admin" (some deskSigningKey) deskTime = .ok (next,row) ∧ HandedOver desk deskStore deskRing [deskSelection] row := by
  obtain ⟨next,row,created⟩ := deskStore_offers.created ⟨_,rfl⟩ (by decide) (by decide)
  exact ⟨next,row,created,load_created desk correct_deskScheme ⟨_,rfl⟩ deskSigningKey_fromEnv (List.mem_singleton_self _)
    created⟩

theorem pairedStore_offers : Offers pairedStore [deskSelection,shopSelection] ∧
    (offered pairedStore deskSelection).map namesOf = some [Str.lit "get_health"] ∧
    (offered pairedStore shopSelection).map namesOf = some [Str.lit "get_health"] := by
  have facts := (Bool.and_eq_true_iff.mp offersChecked.down).2
  rw [Bool.and_eq_true,Bool.and_eq_true,decide_eq_true_eq,decide_eq_true_eq] at facts
  obtain ⟨⟨free,first⟩,second⟩ := facts
  have each : ∀ s ∈ [deskSelection,shopSelection], (offered pairedStore s).isSome = true := by
    simp only [List.forall_mem_cons]
    refine ⟨?_,?_,by simp⟩
    · rw [← Option.isSome_map,first]
      rfl
    · rw [← Option.isSome_map,second]
      rfl
  exact ⟨offers_of_offered free each,first,second⟩

/-- Two connectors that share a tool name are pinned together, and the Runtime refuses them. -/
theorem shared_name_refused : ∃ db next row, Reachable desk db ∧
    createSnapshot deskScheme desk.engine db "prod" [deskSelection,⟨"shop","0.1.0"⟩] "admin" (some deskSigningKey) deskTime =
      .ok (next,row) ∧
    ∀ etag loadedAt, loadSnapshotDocument deskScheme desk.engine ⟨.required,deskRing⟩ (.dict row.document) etag loadedAt =
      .error sharedToolName := by
  obtain ⟨offers,first,second⟩ := pairedStore_offers
  have reached : Reachable desk pairedStore := ⟨_,rfl⟩
  obtain ⟨next,row,created⟩ := offers.created reached (by decide) (by decide)
  have trusted : deskSigningKey.verifyingKey desk.scheme ∈ deskRing.keys := List.mem_singleton_self _
  obtain ⟨snapshot,verifies⟩ := verifies_created desk correct_deskScheme reached deskSigningKey_fromEnv trusted created
  obtain ⟨pinned,documents,pins,reordered,_,related⟩ := verifies.exists_pinned
  have named : ∀ c ∈ snapshot.connectors, c.tools.map ToolDefinition.toolName = [Str.lit "get_health"] := by
    intro c member
    obtain ⟨document,inside,read⟩ := exists_left related member
    obtain ⟨s,chosen,version,_,stored,rfl,_,_⟩ := exists_left pins (reordered.mem_iff.mp inside)
    have names : (offered pairedStore s).map namesOf = some [Str.lit "get_health"] := by
      simp only [List.mem_cons,List.not_mem_nil,or_false] at chosen
      rcases chosen with rfl | rfl
      · exact first
      · exact second
    have listed := namesOf_of_offered stored names
    rw [namesOf,read] at listed
    exact listed
  have both : snapshot.connectors.length = 2 := by
    rw [← related.length_eq,reordered.length_eq,← pins.length_eq]
    rfl
  have shared : ¬ Apart snapshot.connectors := by
    intro apart
    match connectors : snapshot.connectors,both with
    | [a,b],_ =>
      rw [connectors] at named apart
      have here := named a List.mem_cons_self
      have there := named b (List.mem_cons_of_mem _ List.mem_cons_self)
      obtain ⟨t,inA,tName⟩ := List.mem_map.mp (here ▸ List.mem_singleton_self (Str.lit "get_health"))
      obtain ⟨u,inB,uName⟩ := List.mem_map.mp (there ▸ List.mem_singleton_self (Str.lit "get_health"))
      exact (List.pairwise_cons.mp apart).1 b List.mem_cons_self t inA u inB (tName.trans uName.symm)
  exact ⟨pairedStore,next,row,reached,created,fun etag loadedAt => (load_of_verifies verifies etag loadedAt).2 shared⟩

end Desk

end ToolLayer.Delivery
