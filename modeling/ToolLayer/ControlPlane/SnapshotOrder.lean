import ToolLayer.ControlPlane.Effects
import ToolLayer.Kit.Numbering

/-! The snapshots of a deployment as concurrent transactions create them, and the one that
is served. -/
namespace ToolLayer.ControlPlane
open Python Kit Kit.Result Kit.Numbering OpenApi

def snapshotTable : Table SnapshotRow where
  number := SnapshotRow.revision
  live := SnapshotRow.active
  retire row := { row with active := false }
  number_retire _ := rfl
  live_retire _ := rfl

/-- Revisions without gaps or reuse, and exactly the last one active. -/
structure InSequence (rows : List SnapshotRow) : Prop where
  revisions : rows.map SnapshotRow.revision = List.range' 1 rows.length
  active_iff : ∀ row ∈ rows, row.active = true ↔ row.revision = rows.length
  existsUnique_active : rows ≠ [] → ∃! row, row ∈ rows ∧ row.active = true

theorem inSequence_iff {rows : List SnapshotRow} : InSequence rows ↔ Numbered snapshotTable rows := by
  constructor
  · intro ordered
    exact ⟨ordered.revisions,ordered.active_iff⟩
  · intro numbered
    exact ⟨numbered.numbers,numbered.live_iff,numbered.existsUnique_live⟩

/-- `ORDER BY revision DESC LIMIT 1`. -/
def latestSnapshot (rows : List SnapshotRow) : Option SnapshotRow :=
  rows.foldl (fun best row => if best.any (fun b => decide (row.revision ≤ b.revision)) then best else some row) none

def getActiveSnapshot (db : Database) (deploymentKey : Str) : Except PyExc SnapshotRow := do
  let deployment ← getDeployment db deploymentKey
  match latestSnapshot (deployment.snapshots.filter SnapshotRow.active) with
  | some row => return row
  | none => throw (notFound "the deployment has no snapshot yet" .snapshotUnavailable)

/-- In a sequence the query has one row to choose from. -/
theorem InSequence.latestSnapshot_eq {rows : List SnapshotRow} (ordered : InSequence rows) {row : SnapshotRow}
    (member : row ∈ rows) (last : row.revision = rows.length) : latestSnapshot (rows.filter SnapshotRow.active) = some row := by
  have distinct : (rows.map SnapshotRow.revision).Nodup := ordered.revisions ▸ List.nodup_range'
  have only : ∀ other ∈ rows.filter SnapshotRow.active, other = row := by
    intro other inside
    obtain ⟨there,active⟩ := List.mem_filter.mp inside
    have revision := (ordered.active_iff other there).mp active
    exact List.inj_on_of_nodup_map distinct there member (revision.trans last.symm)
  have found : row ∈ rows.filter SnapshotRow.active :=
    List.mem_filter.mpr ⟨member,(ordered.active_iff row member).mpr last⟩
  have rest : ∀ others : List SnapshotRow, (∀ other ∈ others, other = row) →
      others.foldl (fun best row => if best.any (fun b => decide (row.revision ≤ b.revision)) then best else some row)
        (some row) = some row := by
    intro others
    induction others with
    | nil => exact fun _ => rfl
    | cons other others ih =>
      intro same
      rw [List.forall_mem_cons] at same
      rw [List.foldl_cons,same.1,if_pos (by simp)]
      exact ih same.2
  cases shape : rows.filter SnapshotRow.active with
  | nil =>
    rw [shape] at found
    cases found
  | cons first others =>
    rw [shape,List.forall_mem_cons] at only
    rw [latestSnapshot,List.foldl_cons,only.1]
    exact rest others only.2

section Transactions

variable [Unicode] (scheme : Ed25519) (engine : SchemaEngine)

/-- What one call of `create_snapshot` has in hand when it reads the revision. -/
structure SnapshotJob where
  pinned : List Dict
  createdBy : Str
  signingKey : Option SigningKey
  now : Timestamp

/-- The row a call writes under a revision. -/
def SnapshotJob.row (job : SnapshotJob) (deploymentKey : Str) (revision : Nat) : Except PyExc SnapshotRow := do
  let connectors := sortDocuments job.pinned
  let payload := snapshotPayload deploymentKey revision job.now connectors
  let (document,snapshotId,digest) ← snapshotDocument scheme payload job.signingKey
  validateDeploymentSnapshot engine (.dict document)
  SnapshotRow.flush
    { revision := revision, snapshotId := snapshotId, document := document, snapshotDigest := digest,
      connectorCount := connectors.length, active := true, createdAt := job.now, createdBy := job.createdBy }

variable {scheme engine}

theorem SnapshotJob.row_eq_ok {job : SnapshotJob} {deploymentKey : Str} {revision : Nat} {row : SnapshotRow}
    (done : job.row scheme engine deploymentKey revision = .ok row) : row.revision = revision ∧ row.active = true := by
  unfold SnapshotJob.row at done
  obtain ⟨⟨document,snapshotId,digest⟩,_,done⟩ := bind_eq_ok.mp done
  obtain ⟨_,_,done⟩ := bind_eq_ok.mp done
  rw [SnapshotRow.flush_eq_ok done]
  exact ⟨rfl,rfl⟩

variable (scheme engine)

def snapshotWriters (deploymentKey : Str) (jobs : Nat → SnapshotJob) : Writers snapshotTable where
  build i revision := ((jobs i).row scheme engine deploymentKey revision).toOption
  number_build _ _ _ built := (SnapshotJob.row_eq_ok (toOption_eq_some.mp built)).1
  live_build _ _ _ built := (SnapshotJob.row_eq_ok (toOption_eq_some.mp built)).2

/-- The snapshots of a new deployment after any interleaving of calls. -/
def interleaved (deploymentKey : Str) (jobs : Nat → SnapshotJob) (schedule : List Event) : List SnapshotRow :=
  (run (snapshotWriters scheme engine deploymentKey jobs) (World.start []) schedule).rows

theorem interleaved_inSequence (deploymentKey : Str) (jobs : Nat → SnapshotJob) (schedule : List Event) :
    InSequence (interleaved scheme engine deploymentKey jobs schedule) := by
  have empty : Numbered snapshotTable [] := ⟨rfl,fun _ member => nomatch member⟩
  exact inSequence_iff.mpr ((Sound.start empty).run schedule).numbered

variable {scheme engine} [Pydantic]

/-- A call on its own is the transaction that runs to its commit undisturbed. -/
theorem createSnapshot_alone {db next : Database} {key createdBy : Str} {selections : List SnapshotSelection}
    {signingKey : Option SigningKey} {now : Timestamp} {row : SnapshotRow}
    (done : createSnapshot scheme engine db key selections createdBy signingKey now = .ok (next,row)) :
    ∃ d d' pinned, db.deployment key = some d ∧ next = db.putDeployment key d' ∧ d'.snapshots =
      (run (snapshotWriters scheme engine key (fun _ => ⟨pinned,createdBy,signingKey,now⟩)) (World.start d.snapshots)
        [.advance 0,.advance 0,.advance 0,.advance 0]).rows := by
  unfold createSnapshot at done
  obtain ⟨d,found,done⟩ := bind_eq_ok.mp done
  obtain ⟨⟨seen,pinned⟩,selected,done⟩ := bind_eq_ok.mp done
  obtain ⟨⟨document,snapshotId,digest⟩,built,done⟩ := bind_eq_ok.mp done
  obtain ⟨_,valid,done⟩ := bind_eq_ok.mp done
  obtain ⟨written,flushed,done⟩ := bind_eq_ok.mp done
  obtain ⟨_,done⟩ := refuse_bind_eq_ok.mp done
  obtain ⟨d',inserted,done⟩ := bind_eq_ok.mp done
  cases done
  refine ⟨d,d',pinned,getDeployment_eq_ok.mp found,rfl,?_⟩
  have wrote : SnapshotJob.row scheme engine ⟨pinned,createdBy,signingKey,now⟩ key (nextRevision d) = .ok row := by
    simp only [SnapshotJob.row,built,ok_bind,valid]
    exact flushed
  unfold Deployment.insertSnapshot at inserted
  split at inserted
  next => cases inserted
  next free =>
    cases inserted
    have retired : d.snapshots.map (fun previous => { previous with active := false }) = d.snapshots.map (fun previous =>
        if snapshotTable.number previous ∈ d.snapshots.map snapshotTable.number then snapshotTable.retire previous
        else previous) := by
      apply List.map_congr_left
      intro previous member
      rw [if_pos (List.mem_map_of_mem member)]
      rfl
    rw [run_alone (toOption_eq_some.mpr wrote) free,insertRow,← retired]

theorem createSnapshot_inSequence {db next : Database} {key createdBy : Str} {selections : List SnapshotSelection}
    {signingKey : Option SigningKey} {now : Timestamp} {row : SnapshotRow}
    (before : ∀ key d, db.deployment key = some d → InSequence d.snapshots)
    (done : createSnapshot scheme engine db key selections createdBy signingKey now = .ok (next,row)) :
    ∀ key d, next.deployment key = some d → InSequence d.snapshots := by
  obtain ⟨d,d',pinned,found,rfl,rows⟩ := createSnapshot_alone done
  intro other e stored
  by_cases same : other = key
  · subst same
    rw [Database.deployment_putDeployment] at stored
    cases stored
    have numbered := inSequence_iff.mp (before other d found)
    rw [rows]
    exact inSequence_iff.mpr ((Sound.start numbered).run _).numbered
  · rw [Database.deployment_putDeployment_other db d' same] at stored
    exact before other e stored

end Transactions

end ToolLayer.ControlPlane
