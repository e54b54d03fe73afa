import ToolLayer.Contracts.Encoding
import ToolLayer.ControlPlane.Deployable
import ToolLayer.ControlPlane.Internal

/-! The snapshots of a deployment as a log that only grows, and what the internal route
answers from it. -/
namespace ToolLayer.ControlPlane
open Python Kit Kit.Result

/-- What of a stored snapshot never changes. -/
structure Issue where
  revision : Nat
  document : Dict
  digest : Str

def SnapshotRow.issue (row : SnapshotRow) : Issue := ⟨row.revision,row.document,row.snapshotDigest⟩

def Issue.tag (v : Issue) : Str := entityTag v.digest

def Deployment.issues (d : Deployment) : List Issue := d.snapshots.map SnapshotRow.issue

/-- The snapshots of a deployment so far; a deployment that is not there has none. -/
def issues (db : Database) (key : Str) : List Issue := ((db.deployment key).map Deployment.issues).getD []

theorem issues_eq {db : Database} {key : Str} {d : Deployment} (found : db.deployment key = some d) :
    issues db key = d.issues := by rw [issues,found]; rfl

theorem jsonBody_eq_ok {v : Value} (canonical : Canonical v) :
    jsonBody v = .ok (Utf8.bytes (Json.render canonicalOptions v)) := by
  have written := writable_canonicalOptions.mpr ⟨canonical.1,canonical.2.1⟩
  rw [jsonBody,show Json.dumps ⟨",",":",false⟩ v = _ from dumps_eq_ok.mpr ⟨written,rfl⟩,ok_bind]
  have plain : Str.scalar (Json.render canonicalOptions v) = true :=
    (Json.scalar_render compact_canonicalOptions written).mpr canonical.2.2
  exact Utf8.encode_eq_ok.mpr ⟨plain,rfl⟩

section Calls

variable [Pydantic] [Unicode] {setting : Setting} {call : Call} {db next : Database}

/-- Only two kinds of calls change the deployments: one adds a deployment without snapshots,
the other adds one snapshot to a deployment. -/
theorem deployments_cases (done : call.run setting db = .ok next) :
    next.deployments = db.deployments ∨
    (∃ key d, db.deployment key = none ∧ resourceKey key = true ∧ d.snapshots = [] ∧ next = db.putDeployment key d) ∨
    ∃ key selections createdBy signingKey row,
      createSnapshot setting.scheme setting.engine db key selections createdBy signingKey call.now = .ok (next,row) := by
  obtain ⟨request,now⟩ := call
  cases request with
  | register r admitted =>
    obtain ⟨⟨_,_⟩,run,rfl⟩ := map_eq_ok.mp done
    obtain ⟨_,_,_,_,_,_,_,_,_,_,_,_,_,rfl⟩ := (registerConnector_eq_ok run).exists_analysis
    exact Or.inl rfl
  | update u admitted =>
    obtain ⟨⟨_,_⟩,run,rfl⟩ := map_eq_ok.mp done
    obtain ⟨_,_,_,_,_,_,_,_,_,_,_,rfl⟩ := (updateReview_eq_ok run).exists_draft
    exact Or.inl rfl
  | publish p admitted =>
    obtain ⟨⟨_,_⟩,run,rfl⟩ := map_eq_ok.mp done
    obtain ⟨_,_,_,_,_,_,_,_,_,_,rfl⟩ := (publishDraft_eq_ok setting.engine run).exists_draft
    exact Or.inl rfl
  | disable connectorKey version reason =>
    obtain ⟨⟨_,_⟩,run,rfl⟩ := map_eq_ok.mp done
    rcases disableVersion_eq_ok run with rfl | ⟨_,_,_,_,_,rfl⟩
    · exact Or.inl rfl
    · exact Or.inl rfl
  | createDeployment deploymentKey displayName description admitted =>
    obtain ⟨⟨_,d⟩,run,rfl⟩ := map_eq_ok.mp done
    obtain ⟨empty,rfl⟩ := createDeployment_eq_ok run
    obtain ⟨fresh,_⟩ := refuse_bind_eq_ok.mp run
    refine Or.inr (Or.inl ⟨deploymentKey,d,?_,admitted,empty,rfl⟩)
    simpa using fresh
  | createSnapshot deploymentKey selections createdBy signingKey =>
    obtain ⟨⟨_,row⟩,run,rfl⟩ := map_eq_ok.mp done
    exact Or.inr (Or.inr ⟨deploymentKey,selections,createdBy,signingKey,row,run⟩)

/-- A created snapshot comes after those there were, and no other deployment changes. -/
theorem issues_created {key createdBy : Str} {selections : List SnapshotSelection} {signingKey : Option SigningKey}
    {now : Timestamp} {row : SnapshotRow}
    (done : createSnapshot setting.scheme setting.engine db key selections createdBy signingKey now = .ok (next,row)) :
    issues next key = issues db key ++ [row.issue] ∧ ∀ other, other ≠ key → issues next other = issues db other := by
  obtain ⟨d,grown,_,_,_,_,found,_,_,_,_,_,_,_,inserted,rfl⟩ := (createSnapshot_eq_ok done).exists_document
  constructor
  · rw [issues_eq (Database.deployment_putDeployment db key grown),issues_eq found,Deployment.issues,
      insertSnapshot_eq_ok inserted,List.map_append,List.map_map]
    rfl
  · intro other different
    rw [issues,issues,Database.deployment_putDeployment_other db grown different]

theorem issues_run (done : call.run setting db = .ok next) (key : Str) : issues next key = issues db key ∨
    ∃ selections createdBy signingKey row,
      createSnapshot setting.scheme setting.engine db key selections createdBy signingKey call.now = .ok (next,row) ∧
      issues next key = issues db key ++ [row.issue] := by
  rcases deployments_cases done with same | ⟨made,d,absent,_,empty,rfl⟩ | ⟨made,selections,createdBy,signingKey,row,run⟩
  · exact Or.inl (by rw [issues,issues,Database.deployment,Database.deployment,same])
  · refine Or.inl ?_
    by_cases here : key = made
    · rw [here,issues_eq (Database.deployment_putDeployment db made d),Deployment.issues,empty,issues,absent]
      rfl
    · rw [issues,issues,Database.deployment_putDeployment_other db d here]
  · obtain ⟨grown,others⟩ := issues_created run
    by_cases here : key = made
    · subst here
      exact Or.inr ⟨selections,createdBy,signingKey,row,run,grown⟩
    · exact Or.inl (others key here)

/-- The log of a deployment grows by one snapshot at most. -/
theorem issues_after (setting : Setting) (call : Call) (db : Database) (key : Str) :
    issues (call.after setting db) key = issues db key ∨ ∃ v, issues (call.after setting db) key = issues db key ++ [v] := by
  unfold Call.after
  split
  next next done =>
    rcases issues_run done key with same | ⟨_,_,_,row,_,grown⟩
    · exact Or.inl same
    · exact Or.inr ⟨row.issue,grown⟩
  next => exact Or.inl rfl

end Calls

section Rows

/-- What a stored snapshot says of itself: its document names its deployment, its revision and
its digest, which was taken over its content. -/
structure Issue.Sealed (key : Str) (v : Issue) : Prop where
  revision : Dict.get v.document "revision" = .int v.revision
  deployment : Dict.get v.document "deployment_key" = .str key
  digest : contentDigest v.document snapshotDigestExcluded = .ok v.digest
  distinct : Value.distinct (.dict v.document) = true
  canonical : Canonical (.dict v.document)

variable [Pydantic] [Unicode] {setting : Setting} {db next : Database}

omit [Pydantic] [Unicode] in
theorem canonical_snapshotDocument {scheme : Ed25519} {payload document : Dict} {signingKey : Option SigningKey}
    {snapshotId digest : Str} (built : snapshotDocument scheme payload signingKey = .ok (document,snapshotId,digest)) :
    Canonical (.dict document) := by
  have canonical : Canonical (.dict payload) := by
    obtain ⟨taken,_⟩ := snapshotDocument_eq_ok built
    have whole := exists_contentDigest.mp ⟨digest,taken⟩
    rwa [without_nil] at whole
  obtain ⟨_,_,_,again,whole,_⟩ := exists_snapshotDocument scheme signingKey canonical
  rw [built] at again
  cases again
  exact whole

theorem sealed_created (sound : db.Sound) {key createdBy : Str} {selections : List SnapshotSelection}
    {signingKey : Option SigningKey} {now : Timestamp} {row : SnapshotRow}
    (done : createSnapshot setting.scheme setting.engine db key selections createdBy signingKey now = .ok (next,row)) :
    row.issue.Sealed key := by
  obtain ⟨sealed_,_⟩ := createSnapshot_row sound done
  obtain ⟨d,_,seen,pinned,document,digest,_,selection,built,_,stored,numbered,_⟩ :=
    (createSnapshot_eq_ok done).exists_document
  have chosen := selected sound selection
  have reordered : (sortDocuments pinned).Perm pinned := List.perm_insertionSort _ _
  have distinct := distinct_snapshotPayload key (nextRevision d) now
    (fun document member => chosen.distinct document (reordered.mem_iff.mp member))
  rw [reload_snapshotDocument built distinct] at stored
  obtain ⟨_,_,form⟩ := snapshotDocument_eq_ok built
  have members : Dict.get document "revision" = .int (nextRevision d) ∧ Dict.get document "deployment_key" = .str key ∧
      Value.distinct (.dict document) = true := by
    have named : ∀ id digest, Value.distinct (.dict (identified (snapshotPayload key (nextRevision d) now
        (sortDocuments pinned)) id digest)) = true := fun _ _ =>
      Value.distinct_set "snapshot_digest" (Value.distinct_set "snapshot_id" distinct (Value.distinct_str _))
        (Value.distinct_str _)
    rcases form with ⟨_,rfl⟩ | ⟨_,_,_,_,rfl⟩
    · exact ⟨rfl,rfl,named _ _⟩
    · exact ⟨rfl,rfl,Value.distinct_set signatureField (named _ _) rfl⟩
  obtain ⟨revision,deployment,keys⟩ := members
  refine ⟨?_,?_,(verifyDigest_eq_true.mp sealed_.verifies).2,?_,?_⟩
  · rw [SnapshotRow.issue,stored,numbered]
    exact revision
  · rw [SnapshotRow.issue,stored]
    exact deployment
  · rw [SnapshotRow.issue,stored]
    exact keys
  · rw [SnapshotRow.issue,stored]
    exact canonical_snapshotDocument built

/-- In every state a run reaches the stored snapshots are sealed. -/
theorem sealed_issues (reached : Reachable setting db) : ∀ key, ∀ v ∈ issues db key, v.Sealed key := by
  have kept : db.Sound ∧ ∀ key, ∀ v ∈ issues db key, v.Sealed key := by
    refine reachable_keeps setting (fun db => db.Sound ∧ ∀ key, ∀ v ∈ issues db key, v.Sealed key)
      ⟨Database.Sound.empty,fun _ _ member => by cases member⟩ ?_ reached
    rintro before after call ⟨sound,sealed_⟩ done
    refine ⟨(run_sound done sound).1,fun key v member => ?_⟩
    rcases issues_run done key with same | ⟨_,_,_,row,run,grown⟩
    · exact sealed_ key v (same ▸ member)
    · rw [grown] at member
      rcases List.mem_append.mp member with old | new
      · exact sealed_ key v old
      · rw [List.mem_singleton.mp new]
        exact sealed_created sound run
  exact kept.2

omit [Pydantic] [Unicode] in
/-- Revisions count the snapshots of a deployment. -/
theorem revision_of_issues (sound : db.Sound) {key : Str} {k : Nat} {v : Issue} (found : (issues db key)[k]? = some v) :
    v.revision = k + 1 := by
  cases there : db.deployment key with
  | none =>
    rw [issues,there] at found
    simp at found
  | some d =>
    rw [issues_eq there,Deployment.issues,List.getElem?_map,Option.map_eq_some_iff] at found
    obtain ⟨row,stored,rfl⟩ := found
    have revisions := (sound.deployments key d there).sequence.revisions
    have at_ : (d.snapshots.map SnapshotRow.revision)[k]? = some row.revision := by
      rw [List.getElem?_map,stored]
      rfl
    rw [revisions] at at_
    obtain ⟨_,value⟩ := List.getElem?_eq_some_iff.mp at_
    rw [List.getElem_range'] at value
    change row.revision = k + 1
    omega

omit [Pydantic] [Unicode] in
/-- The active snapshot is the last of the log. -/
theorem getActiveSnapshot_cases (sound : db.Sound) (key : Str) :
    (issues db key = [] ∧ ∃ e, getActiveSnapshot db key = .error (.own (.toolLayer e)) ∧ 400 ≤ e.code.status) ∨
    ∃ row, getActiveSnapshot db key = .ok row ∧ (issues db key).getLast? = some row.issue := by
  cases found : db.deployment key with
  | none =>
    refine Or.inl ⟨by rw [issues,found]; rfl,⟨.notFound,"no deployment exists with that key",none,[]⟩,?_,by decide⟩
    rw [getActiveSnapshot,getDeployment,found]
    rfl
  | some d =>
    have active : ∀ row, latestSnapshot (d.snapshots.filter SnapshotRow.active) = some row →
        getActiveSnapshot db key = .ok row := by
      intro row latest
      rw [getActiveSnapshot,getDeployment_eq_ok.mpr found,ok_bind,latest]
      rfl
    have ordered := (sound.deployments key d found).sequence
    rw [issues_eq found,Deployment.issues]
    cases last : d.snapshots.getLast? with
    | none =>
      rw [List.getLast?_eq_none_iff] at last
      refine Or.inl ⟨by rw [last]; rfl,⟨.snapshotUnavailable,"the deployment has no snapshot yet",none,[]⟩,?_,by decide⟩
      rw [getActiveSnapshot,getDeployment_eq_ok.mpr found,ok_bind,last]
      rfl
    | some row =>
      have numbered : row.revision = d.snapshots.length := by
        have revisions := congrArg List.getLast? ordered.revisions
        rw [List.getLast?_map,last,List.getLast?_range'] at revisions
        have filled : d.snapshots.length ≠ 0 := by
          intro empty
          rw [List.length_eq_zero_iff.mp empty] at last
          cases last
        rw [if_neg filled] at revisions
        have same := Option.some.inj revisions
        omega
      refine Or.inr ⟨row,?_,?_⟩
      · exact active row (ordered.latestSnapshot_eq (List.mem_of_getLast? last) numbered)
      · rw [List.getLast?_map,last]
        rfl

end Rows

section Tags

theorem entityTag_injective : Function.Injective entityTag := by
  intro a b same
  exact List.append_cancel_left (List.append_cancel_right same)

/-- The contents of the snapshots have different digests, unless they are one content. -/
def NoCollision (log : List Issue) : Prop :=
  ∀ v ∈ log, ∀ w ∈ log, DigestsApart (.dict (Dict.without v.document snapshotDigestExcluded))
    (.dict (Dict.without w.document snapshotDigestExcluded))

/-- The revision is part of what the digest is taken over. -/
theorem revision_of_tag {key : Str} {v w : Issue} (first : v.Sealed key) (second : w.Sealed key)
    (apart : DigestsApart (.dict (Dict.without v.document snapshotDigestExcluded))
      (.dict (Dict.without w.document snapshotDigestExcluded)))
    (same : v.tag = w.tag) : v.revision = w.revision := by
  obtain ⟨data,taken,digest⟩ := bind_eq_ok.mp first.digest
  obtain ⟨other,otherTaken,otherDigest⟩ := bind_eq_ok.mp second.digest
  have digests : digestOf data = digestOf other := by
    rw [Except.ok.inj digest,Except.ok.inj otherDigest]
    exact entityTag_injective same
  have equal := apart data other taken otherTaken (List.append_cancel_left digests)
  have alike := canonicalBytes_inj taken (equal ▸ otherTaken)
  have member (u : Issue) (sealed_ : u.Sealed key) :
      (Str.lit "revision",Value.int u.revision) ∈ Dict.without u.document snapshotDigestExcluded := by
    refine List.mem_filter.mpr ⟨Assoc.mem_of_get ?_,show (!snapshotDigestExcluded.contains (Str.lit "revision")) = true by decide⟩
    have found := sealed_.revision
    unfold Dict.get at found
    cases shape : Assoc.get (Str.lit "revision") u.document with
    | none =>
      rw [shape] at found
      cases found
    | some value =>
      rw [shape] at found
      exact congrArg some found
  obtain ⟨⟨name,value⟩,inside,rfl,value_⟩ := alike.exists_mem (member v first)
  have is : value = .int v.revision := Value.eq_int_of_same value_
  have once : (Assoc.keys (Dict.without w.document snapshotDigestExcluded)).Nodup :=
    (List.filter_sublist.map Prod.fst).nodup (Value.distinct_dict.mp second.distinct).1
  have found := Assoc.get_of_mem once (member w second)
  rw [Assoc.get_of_mem once inside] at found
  change some value = _ at found
  rw [is] at found
  exact_mod_cast Value.int.inj (Option.some.inj found)

theorem Issue.Sealed.plain {key : Str} {v : Issue} (sealed_ : v.Sealed key) : ∀ c ∈ v.digest, c ≠ CodePoint.ofChar ',' := by
  obtain ⟨data,_,digest⟩ := bind_eq_ok.mp sealed_.digest
  rw [← Except.ok.inj digest,digestOf]
  intro c member
  rcases List.mem_append.mp member with front | last
  · have clean : digestPrefix.all (fun c => c != CodePoint.ofChar ',') = true := by decide
    exact bne_iff_ne.mp (List.all_eq_true.mp clean c front)
  · rintro rfl
    exact absurd (Sha256.isHex_of_mem_hexdigest last) (by decide)

/-- What the service's condition comes to for a tag it gave out earlier. -/
theorem any_tagMatches {key : Str} {tag : Option Str} (tagged : ∀ t ∈ tag, ∃ v : Issue, t = v.tag ∧ v.Sealed key)
    (current : Issue) : tag.any (fun header => tagMatches header current.tag) = true ↔ tag = some current.tag := by
  cases tag with
  | none => simp
  | some t =>
    obtain ⟨v,rfl,sealed_⟩ := tagged t rfl
    rw [Option.any_some,Option.some.injEq]
    exact tagMatches_entityTag sealed_.plain

variable [Pydantic] [Unicode] {setting : Setting} {db : Database}

/-- So no two snapshots of a deployment share an entity tag. -/
theorem nodup_tags (reached : Reachable setting db) {key : Str} (apart : NoCollision (issues db key)) :
    ((issues db key).map Issue.tag).Nodup := by
  have sealed_ := sealed_issues reached key
  obtain ⟨calls,rfl⟩ := reached
  have sound := (runCalls_sound setting calls Database.Sound.empty).1
  rw [List.Nodup,List.pairwise_iff_getElem]
  intro i j small bound before
  rw [List.length_map] at small bound
  rw [List.getElem_map,List.getElem_map]
  intro same
  have first := revision_of_issues sound (List.getElem?_eq_getElem small)
  have second := revision_of_issues sound (List.getElem?_eq_getElem bound)
  have equal := revision_of_tag (sealed_ _ (List.getElem_mem small)) (sealed_ _ (List.getElem_mem bound))
    (apart _ (List.getElem_mem small) _ (List.getElem_mem bound)) same
  omega

end Tags

end ToolLayer.ControlPlane
