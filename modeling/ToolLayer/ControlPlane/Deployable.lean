import ToolLayer.Contracts.Agreement
import ToolLayer.ControlPlane.Faithfulness

/-! When a snapshot can be created: what its selections need, and what the document gets
from the service itself. -/
namespace ToolLayer.ControlPlane
open Python Kit Kit.Result OpenApi

section Texts

theorem snapshotId_of_hexdigest (data : Bytes) :
    Patterns.snapshotId (Str.lit "snap_" ++ List.take 32 (Sha256.hexdigest data)) = true := by
  rw [Patterns.snapshotId,Patterns.tagged,Bool.and_eq_true,List.isPrefixOf_iff_prefix,List.drop_left]
  refine ⟨List.prefix_append _ _,?_⟩
  rw [Patterns.hexadecimal,Bool.and_eq_true,decide_eq_true_eq,List.length_take,Sha256.length_hexdigest,List.all_eq_true]
  exact ⟨by decide,fun c member => Sha256.isHex_of_mem_hexdigest (List.mem_of_mem_take member)⟩

theorem isDigest_digestOf (data : Bytes) : isDigest (digestOf data) = true := by
  rw [isDigest,Bool.and_eq_true]
  refine ⟨scalar_digestOf data,?_⟩
  rw [Patterns.digest,Patterns.tagged,Bool.and_eq_true,List.isPrefixOf_iff_prefix,digestOf,digestPrefix,List.drop_left]
  refine ⟨List.prefix_append _ _,?_⟩
  rw [Patterns.hexadecimal,Bool.and_eq_true,decide_eq_true_eq,List.all_eq_true]
  exact ⟨Sha256.length_hexdigest data,fun c member => Sha256.isHex_of_mem_hexdigest member⟩

theorem signatureValue_b64uEncode {signature : Bytes} (sized : signature.length = signatureBytes) :
    Patterns.signatureValue (b64uEncode signature) = true := by
  rw [Patterns.signatureValue,b64uEncode_eq_digits,Bool.and_eq_true,decide_eq_true_eq,Base64.length_digits,sized,
    List.all_eq_true]
  refine ⟨by decide,fun c member => ?_⟩
  have safe := Base64.isUrlsafe_of_mem_digits signature c member
  simpa [Base64.isUrlsafe,or_right_comm,or_assoc,or_comm] using safe

/-- The schema takes the block a key signs with. -/
theorem signatureBlock_valid {key : SigningKey} {signature : Bytes} (named : Patterns.keyId key.keyId = true)
    (sized : signature.length = signatureBytes) : Schemas.snapshotSignature (signatureBlock key signature) = [] := by
  have length := named
  simp only [Patterns.keyId,Bool.and_eq_true,decide_eq_true_eq] at length
  obtain ⟨⟨⟨⟨least,most⟩,_⟩,_⟩,_⟩ := length
  refine Sides.snapshotSignature_first.mpr (Sides.object_first.mpr ⟨_,rfl,by simp,?_⟩)
  simp only [List.forall_mem_cons]
  refine ⟨⟨_,rfl,Sides.same_first.mpr rfl⟩,⟨.str key.keyId,rfl,Sides.matching_first.mpr ⟨?_,?_⟩⟩,
    ⟨.str (b64uEncode signature),rfl,Sides.pattern_first.mp ?_⟩,by simp⟩
  · simp [Schemas.text,Rule.type_string_eq_nil,Rule.minLength,Rule.maxLength,least,most]
  · simpa [Rule.pattern] using Patterns.beforeFinalNewline_of_exact named
  · simpa [Rule.pattern,Rule.type_string_eq_nil] using
      Patterns.beforeFinalNewline_of_exact (signatureValue_b64uEncode sized)

end Texts

section Creation

variable [Pydantic] [Unicode]

/-- A version that a snapshot can pin. -/
structure Pinnable (engine : SchemaEngine) (db : Database) (selection : SnapshotSelection) (row : PublishedVersion) :
    Prop where
  found : getVersion db selection.connectorKey selection.version = .ok row
  enabled : row.disabled = false
  readable : ∃ c, ConnectorDefinition.modelValidate (.dict row.document) = .ok c
  valid : validateConnectorDefinition engine (.dict row.document) = .ok ()
  published : Dict.get row.document "lifecycle_state" = .str "published"

theorem loop_of_pinnable {engine : SchemaEngine} {db : Database} {selections : List SnapshotSelection}
    {rows : List PublishedVersion} (each : List.Forall₂ (Pinnable engine db) selections rows) {s : List Str × List Dict}
    (once : (s.1 ++ selections.map SnapshotSelection.connectorKey).Nodup) :
    loop (selectVersion db) s selections = .ok (s.1 ++ selections.map SnapshotSelection.connectorKey,
      s.2 ++ rows.map PublishedVersion.document) := by
  induction each generalizing s with
  | nil => simp
  | @cons selection row rest rows first _ ih =>
    obtain ⟨c,valid⟩ := first.readable
    have absent : s.1.contains selection.connectorKey = false := by
      rw [List.contains_eq_mem,decide_eq_false_iff_not]
      exact fun present => (List.nodup_append.mp once).2.2 _ present _ List.mem_cons_self rfl
    have step : selectVersion db s selection = .ok (s.1 ++ [selection.connectorKey],s.2 ++ [row.document]) := by
      rw [selectVersion,absent,refuse_false,ok_bind,first.found,ok_bind,first.enabled,refuse_false,ok_bind,valid]
      rfl
    rw [List.map_cons,List.append_cons] at once
    rw [loop_cons_eq_ok]
    refine ⟨_,step,?_⟩
    rw [ih once]
    simp

omit [Pydantic] [Unicode] in
theorem canonical_snapshotPayload {deploymentKey : Str} {revision : Nat} (createdAt : Timestamp) {connectors : List Dict}
    (keyed : deploymentKey.scalar = true) (short : Decimal.printable revision = true)
    (each : ∀ document ∈ connectors, Canonical (.dict document)) :
    Canonical (.dict (snapshotPayload deploymentKey revision createdAt connectors)) := by
  have listed : Canonical (.list (connectors.map .dict)) := by
    rw [canonical_list,List.forall_mem_map]
    exact each
  rw [canonical_dict]
  simp only [snapshotPayload,List.forall_mem_cons]
  exact ⟨⟨by decide,canonical_str.mpr (by decide)⟩,⟨by decide,canonical_str.mpr keyed⟩,⟨by decide,canonical_int.mpr short⟩,
    ⟨by decide,canonical_str.mpr createdAt.scalar_rfc3339⟩,⟨by decide,listed⟩,by simp⟩

omit [Pydantic] [Unicode] in
theorem canonical_identified {payload : Dict} (canonical : Canonical (.dict payload)) (data bytes : Bytes) :
    Canonical (.dict (identified payload (Str.lit "snap_" ++ (Sha256.hexdigest data).take 32) (digestOf bytes))) :=
  (canonical.set (by decide) (canonical_str.mpr (scalar_snapshotId data))).set (by decide)
    (canonical_str.mpr (scalar_digestOf bytes))

omit [Pydantic] [Unicode] in
theorem canonical_signatureBlock (key : SigningKey) (signature : Bytes) : Canonical (signatureBlock key signature) := by
  rw [signatureBlock,canonical_dict]
  simp only [List.forall_mem_cons]
  exact ⟨⟨by decide,canonical_str.mpr (by decide)⟩,⟨by decide,canonical_str.mpr (scalar_isKeyId key.named)⟩,
    ⟨by decide,canonical_str.mpr (scalar_b64uEncode _)⟩,by simp⟩

omit [Pydantic] [Unicode] in
/-- A payload with canonical bytes gets its identity and its signature. -/
theorem exists_snapshotDocument (scheme : Ed25519) {payload : Dict} (signingKey : Option SigningKey)
    (canonical : Canonical (.dict payload)) : ∃ document snapshotId digest,
      snapshotDocument scheme payload signingKey = .ok (document,snapshotId,digest) ∧ Canonical (.dict document) ∧
      ∃ data bytes, snapshotId = Str.lit "snap_" ++ (Sha256.hexdigest data).take 32 ∧ digest = digestOf bytes := by
  obtain ⟨data,taken⟩ := exists_canonicalBytes.mpr canonical
  have digested : contentDigest payload [] = .ok (digestOf data) := by
    rw [contentDigest,without_nil,taken]
    rfl
  have named : snapshotIdOf payload = .ok (Str.lit "snap_" ++ (Sha256.hexdigest data).take 32) := by
    rw [snapshotIdOf,taken]
    rfl
  have whole := canonical_identified canonical data data
  unfold snapshotDocument
  rw [digested,ok_bind,named,ok_bind]
  cases signingKey with
  | none => exact ⟨_,_,_,rfl,whole,data,data,rfl,rfl⟩
  | some key =>
    obtain ⟨message,input⟩ := exists_canonicalBytes.mpr (whole.without [signatureField])
    have signed : signDocument scheme (identified payload (Str.lit "snap_" ++ (Sha256.hexdigest data).take 32)
        (digestOf data)) key = .ok (signatureBlock key (scheme.sign key.private_ message)) := by
      rw [signDocument,signingInput,unsigned,input]
      rfl
    refine ⟨Dict.set _ signatureField (signatureBlock key (scheme.sign key.private_ message)),_,_,?_,
      whole.set (by decide) (canonical_signatureBlock key _),data,data,rfl,rfl⟩
    unfold identified at signed
    dsimp only
    rw [signed]
    rfl

omit [Pydantic] [Unicode] in
theorem supported_contractVersion : Supported contractVersion := by
  obtain ⟨s,same,supported⟩ := requireSupported_iff.mp ⟨supportedVersion,show requireSupported (.str contractVersion) = _ by
    decide +kernel⟩
  cases same
  exact supported

omit [Pydantic] in
/-- The schema takes the documents of pinned versions, under an identity and a signature. -/
theorem snapshotDocument_valid {engine : SchemaEngine} {scheme : Ed25519} (sized : ∀ seed message,
      (scheme.sign seed message).length = signatureBytes) {deploymentKey : Str} {revision : Nat} {now : Timestamp}
    {connectors : List Dict} {signingKey : Option SigningKey} {document : Dict} {snapshotId digest : Str}
    (keyed : resourceKey deploymentKey = true) (positive : 1 ≤ revision) (dated : engine.dateTime now.rfc3339 = true)
    (named : ∀ key, signingKey = some key → Patterns.keyId key.keyId = true) (few : connectors.length ≤ 64)
    (each : ∀ c ∈ connectors, validateConnectorDefinition engine (.dict c) = .ok () ∧
      Dict.get c "lifecycle_state" = .str "published")
    (once : (connectors.map (fun c => Dict.get c "connector_key")).Nodup)
    (built : snapshotDocument scheme (snapshotPayload deploymentKey revision now connectors) signingKey =
      .ok (document,snapshotId,digest)) : validateDeploymentSnapshot engine (.dict document) = .ok () := by
  obtain ⟨digested,⟨data,isId⟩,form⟩ := snapshotDocument_eq_ok built
  obtain ⟨bytes,_,hashed⟩ := bind_eq_ok.mp digested
  cases hashed
  have keyText : Schemas.key (.str deploymentKey) = [] := by
    rw [Sides.key_first,Sides.key,Sides.matching_first]
    simp only [resourceKey,Bool.and_eq_true,boundedText,decide_eq_true_eq] at keyed
    exact ⟨by simp [Schemas.text,Rule.type_string_eq_nil,Rule.minLength,Rule.maxLength,keyed.1],
      by simpa [Rule.pattern] using Patterns.beforeFinalNewline_of_exact keyed.2⟩
  have digestText : Schemas.digest (.str (digestOf bytes)) = [] := by
    have matched := isDigest_digestOf bytes
    rw [isDigest,Bool.and_eq_true] at matched
    simpa [Schemas.digest,Rule.type_string_eq_nil,Rule.pattern] using Patterns.beforeFinalNewline_of_exact matched.2
  have idText : Rule.all [Rule.type [.string],Rule.pattern Patterns.snapshotId] (.str snapshotId) = [] := by
    rw [isId]
    simpa [Rule.type_string_eq_nil,Rule.pattern] using Patterns.beforeFinalNewline_of_exact (snapshotId_of_hexdigest data)
  have inner : ∀ c ∈ connectors, Schemas.connectorDefinition engine (.dict c) = [] := by
    intro c member
    obtain ⟨_,_,_,_,valid,_⟩ := (validateConnectorDefinition_eq_ok engine).mp (each c member).1
    exact valid
  have members : ∀ p ∈ Schemas.snapshotMembers engine, p.1 ≠ Str.lit "signature" → ∃ value,
      Assoc.get p.1 (identified (snapshotPayload deploymentKey revision now connectors) snapshotId (digestOf bytes)) =
        some value ∧ p.2 value = [] := by
    simp only [Schemas.snapshotMembers,List.forall_mem_cons]
    refine ⟨fun _ => ⟨_,rfl,?_⟩,fun _ => ⟨_,rfl,idText⟩,fun _ => ⟨_,rfl,keyText⟩,fun _ => ⟨_,rfl,?_⟩,fun _ => ⟨_,rfl,?_⟩,
      fun _ => ⟨_,rfl,digestText⟩,fun other => absurd rfl other,fun _ => ⟨_,rfl,?_⟩,by simp⟩
    · decide
    · have bound : (1 : Int) ≤ revision := by exact_mod_cast positive
      simpa [Rule.type_eq_nil,Value.isType,Rule.minimum] using bound
    · simpa [Rule.type_string_eq_nil,Rule.format] using dated
    · simp only [Rule.all_cons_eq_nil,Rule.type_array_eq_nil,Rule.items_eq_nil,List.forall_mem_map]
      exact ⟨⟨_,rfl⟩,by simp [Rule.minItems],by simpa [Rule.maxItems] using few,inner,rfl⟩
  have valid : Schemas.deploymentSnapshot engine (.dict document) = [] := by
    rw [deploymentSnapshot_eq_nil]
    rcases form with ⟨_,rfl⟩ | ⟨key,message,some_,_,rfl⟩
    · refine ⟨by simp [identified,snapshotPayload,Dict.set,Assoc.set,Schemas.snapshotMembers],members,?_⟩
      rintro value found
      cases found
    · refine ⟨by simp [identified,snapshotPayload,Dict.set,Assoc.set,Schemas.snapshotMembers,signatureField],?_,?_⟩
      · intro p member other
        obtain ⟨value,found,accepted⟩ := members p member other
        exact ⟨value,(Assoc.get_set_other _ _ (Ne.symm other)).trans found,accepted⟩
      · rintro value found
        cases (Assoc.get_set_same signatureField _ _).symm.trans found
        exact signatureBlock_valid (named key some_) (sized _ _)
  have listed : Assoc.get (Str.lit "connectors") document = some (.list (connectors.map .dict)) := by
    rcases form with ⟨_,rfl⟩ | ⟨_,_,_,_,rfl⟩ <;> rfl
  have supported : requireContractVersion (.dict document) "deployment snapshot" = .ok document := by
    refine Sides.requireContractVersion_iff.mpr ⟨rfl,contractVersion,?_,?_⟩
    · rcases form with ⟨_,rfl⟩ | ⟨_,_,_,_,rfl⟩ <;> rfl
    · exact supported_contractVersion
  obtain ⟨seen,looped⟩ := (Sides.validateConnectors_iff engine valid listed).mpr (by
    refine ⟨⟨?_,?_⟩,?_⟩
    · rw [Value.entry_dict,Dict.get_of_found listed,Value.items_list,List.map_map]
      exact once
    · rw [Value.entry_dict,Dict.get_of_found listed,Value.items_list]
      exact List.forall_mem_map.mpr (fun c member => (each c member).2)
    · exact List.forall_mem_map.mpr (fun c member => (each c member).1))
  exact (validateDeploymentSnapshot_eq_ok engine).mpr ⟨document,_,seen,supported,valid,listed,looped⟩

omit [Pydantic] [Unicode] in
theorem exists_jsonColumn {d : Dict} (canonical : Canonical (.dict d)) : jsonColumn d = .ok (Value.reloadMembers [] d) := by
  have written : Json.Writable Failure Json.Options.default (.dict d) := by
    rw [Json.writable_iff]
    refine Value.every_of_every (fun v leaf => ?_) (fun _ _ => rfl)
      (Json.writable_iff.mp (writable_canonicalOptions.mpr ⟨canonical.1,canonical.2.1⟩))
    cases v <;> simp_all [Json.leafWritable,canonicalOptions,Json.Options.default]
  unfold Json.Writable at written
  unfold jsonColumn Json.dumps
  rw [written]

omit [Pydantic] [Unicode] in
theorem insertSnapshot_total {d : Deployment} {row : SnapshotRow} (numbered : row.revision = nextRevision d) :
    ∃ out, d.insertSnapshot row = .ok out := by
  unfold Deployment.insertSnapshot
  split
  next taken =>
    have highest : ∀ (revisions : List Nat) (start r : Nat), r ∈ revisions ∨ r ≤ start → r ≤ revisions.foldl max start := by
      intro revisions
      induction revisions with
      | nil => exact fun start r below => by simpa using below
      | cons first rest ih =>
        intro start r below
        refine ih _ _ ?_
        rcases below with inside | less
        · rcases List.mem_cons.mp inside with rfl | there
          · exact .inr (le_max_right _ _)
          · exact .inl there
        · exact .inr (less.trans (le_max_left _ _))
    have below := highest _ 0 _ (.inl taken)
    rw [numbered,nextRevision] at below
    omega
  next => exact ⟨_,rfl⟩

/-- What the service has of its own for a snapshot of a deployment. -/
structure Issuable (scheme : Ed25519) (engine : SchemaEngine) (deploymentKey createdBy : Str) (d : Deployment)
    (signingKey : Option SigningKey) (now : Timestamp) : Prop where
  sized : ∀ seed message, (scheme.sign seed message).length = signatureBytes
  keyed : resourceKey deploymentKey = true
  counted : nextRevision d ≤ maxInteger
  dated : engine.dateTime now.rfc3339 = true
  named : ∀ key, signingKey = some key → Patterns.keyId key.keyId = true
  requested : createdBy.scalar = true

omit [Pydantic] [Unicode] in
/-- Documents that have digests make a payload that has one. -/
theorem Issuable.canonical {scheme : Ed25519} {engine : SchemaEngine} {deploymentKey createdBy : Str} {d : Deployment}
    {signingKey : Option SigningKey} {now : Timestamp}
    (issuable : Issuable scheme engine deploymentKey createdBy d signingKey now) {connectors : List Dict}
    (each : ∀ c ∈ connectors, ∃ digest, contentDigest c [] = .ok digest) :
    Canonical (.dict (snapshotPayload deploymentKey (nextRevision d) now connectors)) := by
  have keyText : deploymentKey.scalar = true := by
    have bounded := issuable.keyed
    simp only [resourceKey,Bool.and_eq_true] at bounded
    exact scalar_of_boundedText bounded.1
  have short : Decimal.printable (nextRevision d : Int) = true := by
    have counted := issuable.counted
    have large : maxInteger < 10 ^ 20 := by decide
    have larger : 10 ^ 20 ≤ 10 ^ Decimal.maxDigits := Nat.pow_le_pow_right (by decide) (by decide)
    rw [Decimal.printable,decide_eq_true_eq,Int.natAbs_natCast]
    exact (Nat.lt_of_le_of_lt counted large).trans_le larger
  refine canonical_snapshotPayload now keyText short (fun c member => ?_)
  have canonical := exists_contentDigest.mp (each c member)
  rwa [without_nil] at canonical

/-- Pinnable versions of different connectors make a snapshot, unless its identifier is taken. -/
theorem createSnapshot_total {scheme : Ed25519} {engine : SchemaEngine} {db : Database} (sound : db.Sound)
    {deploymentKey createdBy : Str} {d : Deployment} {signingKey : Option SigningKey} {now : Timestamp}
    (found : db.deployment deploymentKey = some d)
    (issuable : Issuable scheme engine deploymentKey createdBy d signingKey now)
    {selections : List SnapshotSelection} {rows : List PublishedVersion}
    (each : List.Forall₂ (Pinnable engine db) selections rows)
    (once : (selections.map SnapshotSelection.connectorKey).Nodup) (few : selections.length ≤ 64) :
    ∃ document snapshotId digest,
      snapshotDocument scheme (snapshotPayload deploymentKey (nextRevision d) now
        (sortDocuments (rows.map PublishedVersion.document))) signingKey = .ok (document,snapshotId,digest) ∧
      ((∃ next row, createSnapshot scheme engine db deploymentKey selections createdBy signingKey now = .ok (next,row)) ↔
        snapshotId ∉ db.snapshotIds) := by
  have reordered : (sortDocuments (rows.map PublishedVersion.document)).Perm (rows.map PublishedVersion.document) :=
    List.perm_insertionSort _ _
  have sealed : ∀ document ∈ rows.map PublishedVersion.document, ∃ s row, s ∈ selections ∧ row.document = document ∧
      Pinnable engine db s row ∧ row.Sealed s.connectorKey := by
    intro document member
    obtain ⟨row,inside,rfl⟩ := List.mem_map.mp member
    obtain ⟨s,there,pinnable⟩ := exists_left each inside
    exact ⟨s,row,there,rfl,pinnable,getVersion_sealed sound pinnable.found⟩
  have keys : (rows.map PublishedVersion.document).map (fun c => Dict.get c "connector_key") =
      (selections.map SnapshotSelection.connectorKey).map .str := by
    rw [List.map_map,List.map_map,← List.forall₂_eq_eq_eq,List.forall₂_map_left_iff,List.forall₂_map_right_iff]
    exact each.flip.imp (fun row s pinnable => (getVersion_sealed sound pinnable.found).named)
  obtain ⟨document,snapshotId,digest,built,canonical,data,bytes,isId,isDigest⟩ := exists_snapshotDocument scheme signingKey
    (issuable.canonical (fun document member => by
      obtain ⟨_,row,_,rfl,_,sealed⟩ := sealed document (reordered.mem_iff.mp member)
      exact ⟨_,sealed.digest⟩))
  have valid : validateDeploymentSnapshot engine (.dict document) = .ok () := by
    refine snapshotDocument_valid issuable.sized issuable.keyed (Nat.le_add_right 1 _) issuable.dated issuable.named ?_ ?_ ?_
      built
    · rw [reordered.length_eq,List.length_map,← each.length_eq]
      exact few
    · intro c member
      obtain ⟨_,row,_,rfl,pinnable,_⟩ := sealed c (reordered.mem_iff.mp member)
      exact ⟨pinnable.valid,pinnable.published⟩
    · rw [(reordered.map _).nodup_iff,keys]
      exact once.map (fun _ _ same => Value.str.inj same)
  refine ⟨document,_,_,built,?_⟩
  constructor
  · rintro ⟨next,row,created⟩
    obtain ⟨d',_,_,pinned,document',_,found',selected,built',_,_,_,_,fresh,_⟩ := (createSnapshot_eq_ok created).exists_document
    cases found.symm.trans found'
    rw [loop_of_pinnable each (s := ([],[])) once] at selected
    cases selected
    cases built.symm.trans built'
    exact fresh
  · intro fresh
    have counted : integerColumn (nextRevision d) = .ok () := by simpa [integerColumn] using issuable.counted
    have idText : textColumn snapshotId = .ok () := textColumn_eq_ok.mpr (isId ▸ scalar_snapshotId data)
    have digestText : textColumn digest = .ok () := textColumn_eq_ok.mpr (isDigest ▸ scalar_digestOf bytes)
    have flushed : SnapshotRow.flush ⟨nextRevision d,snapshotId,document,digest,
        (sortDocuments (rows.map PublishedVersion.document)).length,true,now,createdBy⟩ =
        .ok ⟨nextRevision d,snapshotId,Value.reloadMembers [] document,digest,
          (sortDocuments (rows.map PublishedVersion.document)).length,true,now,createdBy⟩ := by
      simp only [SnapshotRow.flush,counted,ok_bind,idText,exists_jsonColumn canonical,digestText,
        textColumn_eq_ok.mpr issuable.requested]
      rfl
    obtain ⟨out,inserted⟩ := insertSnapshot_total (d := d) (show SnapshotRow.revision ⟨nextRevision d,snapshotId,
      Value.reloadMembers [] document,digest,(sortDocuments (rows.map PublishedVersion.document)).length,true,now,
      createdBy⟩ = nextRevision d from rfl)
    have absent : db.snapshotIds.contains snapshotId = false := by
      simpa using fresh
    refine ⟨db.putDeployment deploymentKey out,⟨nextRevision d,snapshotId,Value.reloadMembers [] document,digest,
      (sortDocuments (rows.map PublishedVersion.document)).length,true,now,createdBy⟩,?_⟩
    unfold createSnapshot
    rw [getDeployment_eq_ok.mpr found,ok_bind,loop_of_pinnable each (s := ([],[])) once,ok_bind]
    simp only [List.nil_append,built,ok_bind,valid,flushed,absent,refuse_false,inserted]
    rfl

end Creation

end ToolLayer.ControlPlane
