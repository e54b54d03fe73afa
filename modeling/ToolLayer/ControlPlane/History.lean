import ToolLayer.ControlPlane.Service

/-! Runs of the Control Plane: the requests its routes admit, one after the other, each
committed or without effect. -/
namespace ToolLayer.ControlPlane
open Python Kit Kit.Result OpenApi

/-- `RegisterConnectorRequest`; the source may be any bytes. -/
def Registration.Accepts (r : Registration) : Prop :=
  resourceKey r.connectorKey = true ∧ r.displayName.all (boundedText 0 128) = true ∧
  r.summary.all (boundedText 0 1024) = true ∧ r.proposedVersion.all semanticVersion = true ∧
  r.baseUrlOverride.all (boundedText 0 2048) = true ∧ r.authProfileRef.all (boundedText 0 256) = true ∧
  boundedText 0 256 r.sourceFilename = true

/-- `ReviewUpdateRequest`. -/
def ReviewUpdate.Accepts (u : ReviewUpdate) : Prop :=
  boundedText 1 2100 u.operationKey = true ∧
  u.selection.all [Str.lit "included",Str.lit "excluded"].contains = true ∧
  u.description.all (boundedText 0 1024) = true ∧
  u.descriptionOrigin.all (DescriptionOrigin.all.map DescriptionOrigin.text).contains = true ∧
  u.effectClass.all (EffectClass.all.map EffectClass.text).contains = true ∧
  u.accessMode.all [Str.lit "public",Str.lit "restricted"].contains = true ∧
  u.allowedRoles.all (fun roles => decide (roles.length ≤ 32) && roles.all resourceKey) = true

/-- `UpdateDraftRequest`. -/
def DraftUpdate.Accepts (u : DraftUpdate) : Prop :=
  1 ≤ u.expectedRevision ∧ u.updates.length ≤ 256 ∧ (∀ update ∈ u.updates, update.Accepts) ∧
  u.proposedVersion.all semanticVersion = true ∧ u.baseUrl.all (boundedText 0 2048) = true ∧
  u.authProfileRef.all (boundedText 0 256) = true

/-- `PublishRequest`. -/
def Publication.Accepts (p : Publication) : Prop :=
  1 ≤ p.expectedRevision ∧ p.version.all semanticVersion = true ∧ boundedText 0 128 p.publishedBy = true

instance (r : Registration) : Decidable r.Accepts := inferInstanceAs (Decidable (_ ∧ _))

instance (u : ReviewUpdate) : Decidable u.Accepts := inferInstanceAs (Decidable (_ ∧ _))

instance (u : DraftUpdate) : Decidable u.Accepts := inferInstanceAs (Decidable (_ ∧ _))

instance (p : Publication) : Decidable p.Accepts := inferInstanceAs (Decidable (_ ∧ _))

/-- A request as its route admits it; a snapshot is signed with what the settings hold then. -/
inductive Request where
  | register (r : Registration) (admitted : r.Accepts)
  | update (u : DraftUpdate) (admitted : u.Accepts)
  | publish (p : Publication) (admitted : p.Accepts)
  | disable (connectorKey version reason : Str)
  | createDeployment (deploymentKey displayName description : Str) (admitted : resourceKey deploymentKey = true)
  | createSnapshot (deploymentKey : Str) (selections : List SnapshotSelection) (createdBy : Str)
      (signingKey : Option SigningKey)

/-- A request and the time it runs at. -/
structure Call where
  request : Request
  now : Timestamp

/-- What the calls share: the parsers and the packages outside the repository. -/
structure Setting where
  parsers : Parsers
  engine : SchemaEngine
  scheme : Ed25519

variable [Pydantic] [Unicode] (setting : Setting)

/-- The database a call commits. -/
def Call.run (call : Call) (db : Database) : Except PyExc Database :=
  match call.request with
  | .register r _ => (registerConnector setting.parsers db r call.now).map (·.1)
  | .update u _ => (updateReview db u).map (·.1)
  | .publish p _ => (publishDraft setting.engine db p call.now).map (·.1)
  | .disable connectorKey version reason => (disableVersion db connectorKey version reason call.now).map (·.1)
  | .createDeployment deploymentKey displayName description _ =>
    (createDeployment db deploymentKey displayName description).map (·.1)
  | .createSnapshot deploymentKey selections createdBy signingKey =>
    (createSnapshot setting.scheme setting.engine db deploymentKey selections createdBy signingKey call.now).map (·.1)

def Call.accepted (call : Call) (db : Database) : Prop := ∃ next, call.run setting db = .ok next

/-- A call that raises is rolled back. -/
def Call.after (call : Call) (db : Database) : Database :=
  match call.run setting db with
  | .ok next => next
  | .error _ => db

def runCalls : Database → List Call → Database
  | db,[] => db
  | db,call::rest => runCalls (call.after setting db) rest

@[simp] theorem runCalls_nil (db : Database) : runCalls setting db [] = db := rfl

@[simp] theorem runCalls_cons (db : Database) (call : Call) (rest : List Call) :
    runCalls setting db (call::rest) = runCalls setting (call.after setting db) rest := rfl

theorem runCalls_append (db : Database) (front back : List Call) :
    runCalls setting db (front ++ back) = runCalls setting (runCalls setting db front) back := by
  induction front generalizing db with
  | nil => rfl
  | cons call rest ih => exact ih _

/-- A state some run from an empty database ends in. -/
def Reachable (db : Database) : Prop := ∃ calls, runCalls setting Database.empty calls = db

/-- What every accepted call keeps holds in every reachable state. -/
theorem reachable_keeps {db : Database} (kept : Database → Prop) (start : kept Database.empty)
    (step : ∀ before after call, kept before → Call.run setting call before = .ok after → kept after)
    (reached : Reachable setting db) : kept db := by
  obtain ⟨calls,rfl⟩ := reached
  have run : ∀ (calls : List Call) (before : Database), kept before → kept (runCalls setting before calls) := by
    intro calls
    induction calls with
    | nil => exact fun _ holds => holds
    | cons call rest ih =>
      intro before holds
      apply ih
      unfold Call.after
      split
      next after done => exact step before after call holds done
      next => exact holds
  exact run calls Database.empty start

end ToolLayer.ControlPlane
