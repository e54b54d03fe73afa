import ToolLayer.Delivery.Acceptance

/-! Whether what was published can be deployed: a connector alone in a snapshot. -/
namespace ToolLayer.Delivery
open Python Kit Kit.Result ControlPlane

/-- The request to pin one version alone, and the settings it is signed under. -/
structure SoloRequest where
  deploymentKey : Str
  selection : SnapshotSelection
  createdBy : Str
  signingKeyId : Str
  signingKeyText : Str
  signingKey : Option SigningKey
  now : Timestamp

section Runs

variable [Pydantic] [Unicode]

def SoloRequest.run (setting : Setting) (db : Database) (r : SoloRequest) : Except PyExc (Database × SnapshotRow) :=
  createSnapshot setting.scheme setting.engine db r.deploymentKey [r.selection] r.createdBy r.signingKey r.now

/-- The version is published and enabled and the deployment is there, with a revision and an
identifier left for the snapshot. -/
structure SoloRequest.Placed (setting : Setting) (db : Database) (r : SoloRequest) (row : PublishedVersion) (d : Deployment) :
    Prop where
  stored : getVersion db r.selection.connectorKey r.selection.version = .ok row
  enabled : row.disabled = false
  found : db.deployment r.deploymentKey = some d
  configured : signingKeyFromEnv r.signingKeyId r.signingKeyText = .ok r.signingKey
  admitted : boundedText 0 128 r.createdBy = true
  counted : nextRevision d ≤ maxInteger
  fresh : ∀ document snapshotId digest, snapshotDocument setting.scheme
    (snapshotPayload r.deploymentKey (nextRevision d) r.now [row.document]) r.signingKey = .ok (document,snapshotId,digest) →
    snapshotId ∉ db.snapshotIds

/-- What was published can be deployed just when the models read its base URL; so it always
can in runs that publish only such drafts. -/
theorem published_deployable (setting : Setting) (correct : setting.scheme.Correct)
    (formats : ∀ t : Timestamp, setting.engine.dateTime t.rfc3339 = true) (calls : List Call) (r : SoloRequest)
    (row : PublishedVersion) (d : Deployment) (placed : r.Placed setting (runCalls setting Database.empty calls) row d) :
    (∃ url, originOf row.document = .str url ∧
      ((∃ next made, r.run setting (runCalls setting Database.empty calls) = .ok (next,made)) ↔ reviewedOrigin url = true)) ∧
    (RunPublishes setting (fun url => reviewedOrigin url = true) Database.empty calls →
      ∃ next made, r.run setting (runCalls setting Database.empty calls) = .ok (next,made)) := by
  obtain ⟨stored,enabled,found,configured,admitted,counted,fresh⟩ := placed
  have sound := (runCalls_sound setting calls Database.Sound.empty).1
  have issuable : Issuable setting.scheme setting.engine r.deploymentKey r.createdBy d r.signingKey r.now :=
    ⟨correct.sized,deploymentKey_of_reachable ⟨calls,rfl⟩ r.deploymentKey d found,counted,formats r.now,
      fun key same => keyId_of_fromEnv (same ▸ configured),scalar_of_boundedText admitted⟩
  have single {allowed : Str → Prop} (publishes : RunPublishes setting allowed Database.empty calls) :
      ∃ url, originOf row.document = .str url ∧ allowed url ∧
        ((∃ next made, r.run setting (runCalls setting Database.empty calls) = .ok (next,made)) ↔
          reviewedOrigin url = true) := by
    obtain ⟨url,document,snapshotId,digest,origin,is,built,created⟩ :=
      createSnapshot_single sound (stocked_runCalls publishes) found issuable stored enabled
    exact ⟨url,origin,is,created.trans (and_iff_left (fresh document snapshotId digest built))⟩
  constructor
  · obtain ⟨url,origin,_,created⟩ := single (runPublishes_any calls Database.empty)
    exact ⟨url,origin,created⟩
  · intro publishes
    obtain ⟨url,_,reviewed,created⟩ := single publishes
    exact created.mpr reviewed

end Runs

section Desk

attribute [local instance] counterTables counterFields

def deskSolo : SoloRequest := ⟨"prod",deskSelection,"admin","cp-1",deskSeed,some deskSigningKey,deskTime⟩

theorem placed_of_offers {db : Database} (offers : Offers db [deskSelection]) :
    ∃ row d, deskSolo.Placed desk db row d ∧ originOf row.document = .str oldOrigin := by
  obtain ⟨d,_,found,none_,unused,_ | ⟨⟨stored,enabled,origin⟩,_⟩⟩ := offers
  refine ⟨_,d,⟨stored,enabled,found,deskSigningKey_fromEnv,by decide,?_,?_⟩,origin⟩
  · rw [nextRevision,none_]
    decide
  · intro _ _ _ _
    rw [unused]
    exact List.not_mem_nil

theorem published_deployable_desk : ∃ row d, deskSolo.Placed desk deskStore row d ∧
    (∃ next made, deskSolo.run desk deskStore = .ok (next,made)) := by
  obtain ⟨row,d,placed,origin⟩ := placed_of_offers deskStore_offers
  obtain ⟨⟨url,same,created⟩,_⟩ := published_deployable desk correct_deskScheme (fun _ => rfl)
    [deskRegisterOld,deskPublish,deskDeploy] deskSolo row d placed
  cases origin.symm.trans same
  exact ⟨row,d,placed,created.mpr (by decide)⟩

/-- A base URL without a host, which the schema's pattern takes. -/
def hostless : Str := "http:///health"

def deskRelocate : Call :=
  ⟨.update { connectorKey := deskKey, expectedRevision := 1, updates := [], baseUrl := some hostless } (by decide +kernel),deskTime⟩

def deskRepublish : Call := ⟨.publish { deskPublication with expectedRevision := 2 } (by decide),deskTime⟩

/-- The published version of the run, if it has the base URL. -/
def relocated (db : Database) : Option PublishedVersion :=
  match getVersion db deskKey "0.1.0" with
  | .ok row => if row.disabled || !(originOf row.document).pyEq (.str hostless) then none else some row
  | .error _ => none

def relocation : List Call := [deskRegisterOld,deskRelocate,deskRepublish,deskDeploy]

theorem placed_of_relocated {db : Database} (facts : (unused db && (relocated db).isSome) = true) :
    ∃ row d, deskSolo.Placed desk db row d ∧ originOf row.document = .str hostless := by
  rw [Bool.and_eq_true,unused,Bool.and_eq_true,List.isEmpty_iff,Option.any_eq_true] at facts
  obtain ⟨⟨none_,d,found,empty⟩,given⟩ := facts
  obtain ⟨row,given⟩ := Option.isSome_iff_exists.mp given
  unfold relocated at given
  split at given
  next row' stored =>
    split at given
    next => cases given
    next fits =>
      cases given
      rw [Bool.or_eq_true,not_or,Bool.not_eq_true,Bool.not_eq_true,Bool.not_eq_false'] at fits
      obtain ⟨enabled,same⟩ := fits
      have origin : originOf row.document = .str hostless := by
        cases shape : originOf row.document <;> simp_all [Value.pyEq]
      refine ⟨row,d,⟨stored,enabled,found,deskSigningKey_fromEnv,by decide,?_,?_⟩,origin⟩
      · rw [nextRevision,List.isEmpty_iff.mp empty]
        decide
      · intro _ _ _ _
        rw [none_]
        exact List.not_mem_nil
  next => cases given

def relocationChecked : PLift ((unused (runCalls desk Database.empty relocation) &&
    (relocated (runCalls desk Database.empty relocation)).isSome) = true) := ⟨by decide +kernel⟩

theorem relocation_publishes : ∃ row d, deskSolo.Placed desk (runCalls desk Database.empty relocation) row d ∧
    originOf row.document = .str hostless := placed_of_relocated relocationChecked.down

/-- A reviewer's base URL without a host is published, and no snapshot takes it. -/
theorem hostless_not_deployable : ∃ calls row d, getVersion (runCalls desk Database.empty calls) deskKey "0.1.0" = .ok row ∧
    row.disabled = false ∧ (runCalls desk Database.empty calls).deployment "prod" = some d ∧
    ∀ next made, deskSolo.run desk (runCalls desk Database.empty calls) ≠ .ok (next,made) := by
  obtain ⟨row,d,placed,origin⟩ := relocation_publishes
  refine ⟨relocation,row,d,placed.stored,placed.enabled,placed.found,fun next made created => ?_⟩
  obtain ⟨d',_,_,_,_,_,_,selected,_⟩ := (createSnapshot_eq_ok created).exists_document
  obtain ⟨_,first,_⟩ := loop_cons_eq_ok.mp selected
  obtain ⟨row',c,_,stored,_,valid,_⟩ := selectVersion_eq_ok first
  cases placed.stored.symm.trans stored
  obtain ⟨url,_,checked⟩ := (stocked_runCalls (runPublishes_any relocation Database.empty)).versions _ _ row stored
  cases checked.origin.symm.trans origin
  exact absurd (checked.readable_iff.mp ⟨c,valid⟩) (by decide)

end Desk

end ToolLayer.Delivery
