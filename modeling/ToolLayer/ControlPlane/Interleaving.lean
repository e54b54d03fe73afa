import ToolLayer.ControlPlane.Revisions
import ToolLayer.Kit.Optimistic

/-! Updates and publications of one draft as concurrent transactions: each reads the
draft row and checks its revision, computes from the versions it reads, and commits
statements that name the row by its id only. -/
namespace ToolLayer.ControlPlane
open Python Kit Kit.Result Kit.Optimistic OpenApi

structure DraftRow where
  id : Nat
  draft : ConnectorDraft

def DraftRow.revision (row : DraftRow) : Nat := row.draft.revision

/-- The statements a transaction emits. -/
inductive Statements where
  | update (id : Nat) (read written : ConnectorDraft)
  | publish (id : Nat) (version : Str) (row : PublishedVersion)

/-- An `UPDATE` sets the columns whose value the session changed. -/
def changed {C : Type} [DecidableEq C] (current read written : C) : C := if written = read then current else written

def ConnectorDraft.overwrite (current read written : ConnectorDraft) : ConnectorDraft :=
  { current with
    revision := written.revision
    review := if Value.pyEq (.dict read.review) (.dict written.review) then current.review else written.review
    proposedVersion := changed current.proposedVersion read.proposedVersion written.proposedVersion
    baseUrl := changed current.baseUrl read.baseUrl written.baseUrl
    authProfileRef := changed current.authProfileRef read.authProfileRef written.authProfileRef }

/-- The commit on the latest rows. An update that matches no row is refused, a delete is not;
the unique constraint refuses a version that is there. -/
def commitStatements (statements : Statements) (row : Option DraftRow) (connector : Connector) :
    Option (Option DraftRow × Connector) :=
  match statements with
  | .update id read written =>
    match row with
    | some current =>
      if current.id = id then some (some ⟨id,current.draft.overwrite read written⟩,connector) else none
    | none => none
  | .publish id version published =>
    match connector.insertVersion version published with
    | .ok inserted => some (row.filter (fun current => current.id != id),inserted)
    | .error _ => none

/-- One request on the connector; the connector's own `draft` field plays no part here. -/
inductive Job (key : Str) where
  | update (u : DraftUpdate) (ours : u.connectorKey = key)
  | publish (p : Publication) (ours : p.connectorKey = key) (now : Timestamp)

def Ordered (a b : Str) : Prop :=
  ∃ x y, parseVersion (.str a) = .ok x ∧ parseVersion (.str b) = .ok y ∧ Precedes x y

theorem coreLess_of_not {a b : ContractVersion} (apart : sameCore a b = false) (notLess : coreLess a b = false) :
    coreLess b a = true := by
  simp only [sameCore,coreLess,Bool.and_eq_false_iff,Bool.or_eq_false_iff,beq_eq_false_iff_ne,
    decide_eq_false_iff_not,Bool.or_eq_true,Bool.and_eq_true,decide_eq_true_eq,beq_iff_eq] at apart notLess ⊢
  omega

theorem sameCore_comm (a b : ContractVersion) : sameCore a b = sameCore b a := by
  rw [Bool.eq_iff_iff]
  simp only [sameCore,Bool.and_eq_true,beq_iff_eq]
  omega

theorem precedes_of_greater {a b : ContractVersion} (greater : ¬ comparePrecedence a b ≤ 0) : Precedes b a := by
  unfold Precedes
  unfold comparePrecedence at greater ⊢
  rw [sameCore_comm b a]
  split at greater
  next apart =>
    rw [if_pos apart]
    have other : sameCore a b = false := by simpa using apart
    split at greater
    next => omega
    next notLess => simp [coreLess_of_not other (by simpa using notLess)]
  next same =>
    rw [if_neg same]
    cases left : a.prerelease with
    | none =>
      rw [left] at greater
      cases right : b.prerelease with
      | none => simp [right] at greater
      | some q => simp
    | some p =>
      rw [left] at greater
      cases right : b.prerelease with
      | none => simp [right] at greater
      | some q =>
        rw [right] at greater
        simp only at greater ⊢
        split at greater
        next => omega
        next different =>
          split at greater
          next => omega
          next notBelow =>
            have below : Str.le q p = true := by
              rcases Str.le_total p q with first | second
              · exact absurd first notBelow
              · exact second
            rw [if_neg (Ne.symm different),if_pos below]
            decide

/-- An accepted version comes after everything that was read as published. -/
theorem rejectVersionRegression_eq_ok {published : List Str} {version : Str}
    (accepted : rejectVersionRegression published version = .ok ()) : ∀ existing ∈ published, Ordered existing version := by
  intro existing member
  unfold rejectVersionRegression at accepted
  obtain ⟨candidate,parsed,accepted⟩ := bind_eq_ok.mp accepted
  obtain ⟨_,looped,_⟩ := bind_eq_ok.mp accepted
  have checked := loop_unit_eq_ok.mp looped existing member
  obtain ⟨other,read,checked⟩ := bind_eq_ok.mp checked
  have greater : ¬ comparePrecedence candidate other ≤ 0 := by simpa using checked
  exact ⟨other,candidate,read,parsed,precedes_of_greater greater⟩

section Transactions

variable [Unicode] (engine : SchemaEngine)

def computeUpdate (u : DraftUpdate) (row : DraftRow) (connector : Connector) : Except PyExc Statements := do
  let revised ← revisedDraft connector.publishedVersions row.draft u
  let written ← revised.flushUpdate
  return .update row.id row.draft written

def computePublication (p : Publication) (now : Timestamp) (row : DraftRow) (connector : Connector) :
    Except PyExc Statements := do
  let (version,published) ← preparedVersion engine connector row.draft p now
  let written ← published.flush
  return .publish row.id version written

def Job.client {key : Str} : Job key → Client DraftRow Connector Statements
  | .update u _ => ⟨u.expectedRevision,fun row connector => (computeUpdate u row connector).toOption,commitStatements⟩
  | .publish p _ now =>
    ⟨p.expectedRevision,fun row connector => (computePublication engine p now row connector).toOption,commitStatements⟩

/-- Any number of requests, by number. -/
def clientsOf {key : Str} (jobs : Nat → Job key) : Nat → Client DraftRow Connector Statements :=
  fun i => (jobs i).client engine

abbrev Transactions := World DraftRow Connector Statements

/-- At most one commit for each expected revision, at most one publication of the draft, and
versions that increase in commit order. -/
structure Isolated (before after : Transactions) : Prop where
  oneCommit : after.tokens.Nodup
  exists_published : ∃ added, after.rest.publishedVersions = before.rest.publishedVersions ++ added ∧
    added.length ≤ 1 ∧ (∀ a ∈ before.rest.publishedVersions, ∀ b ∈ added, Ordered a b) ∧ added.Pairwise Ordered

variable {engine}

theorem computeUpdate_eq_ok {u : DraftUpdate} {row : DraftRow} {connector : Connector} {statements : Statements}
    (done : computeUpdate u row connector = .ok statements) :
    ∃ written, statements = .update row.id row.draft written ∧ written.revision = row.draft.revision + 1 := by
  obtain ⟨revised,revise,done⟩ := bind_eq_ok.mp done
  obtain ⟨written,flushed,done⟩ := bind_eq_ok.mp done
  cases done
  refine ⟨written,rfl,?_⟩
  rw [ConnectorDraft.flushUpdate_eq_ok flushed]
  exact (revisedDraft_eq_ok revise).2.1

theorem computePublication_eq_ok {p : Publication} {now : Timestamp} {row : DraftRow} {connector : Connector}
    {statements : Statements} (done : computePublication engine p now row connector = .ok statements) :
    ∃ version written, statements = .publish row.id version written ∧
      ∀ existing ∈ connector.publishedVersions, Ordered existing version := by
  obtain ⟨⟨version,published⟩,prepared,done⟩ := bind_eq_ok.mp done
  obtain ⟨written,_,done⟩ := bind_eq_ok.mp done
  cases done
  exact ⟨version,written,rfl,rejectVersionRegression_eq_ok (preparedVersion_eq_ok engine prepared).increasing⟩

/-- What a commit can be, on a row that is as the transaction read it. -/
theorem commit_cases {key : Str} {job : Job key} {row : DraftRow} {seen connector : Connector} {statements : Statements}
    {out : Option DraftRow × Connector} (computed : (job.client engine).compute row seen = some statements)
    (written : (job.client engine).write statements (some row) connector = some out) :
    (∃ next, out = (some next,connector) ∧ row.revision < next.revision) ∨
      ∃ version published inserted, out = (none,inserted) ∧ connector.insertVersion version published = .ok inserted ∧
        ∀ existing ∈ seen.publishedVersions, Ordered existing version := by
  cases job with
  | update u ours =>
    obtain ⟨draft,rfl,bumped⟩ := computeUpdate_eq_ok (toOption_eq_some.mp computed)
    have effect : commitStatements (.update row.id row.draft draft) (some row) connector = some out := written
    simp only [commitStatements,if_true,Option.some.injEq] at effect
    subst effect
    refine Or.inl ⟨_,rfl,?_⟩
    change row.draft.revision < draft.revision
    omega
  | publish p ours now =>
    obtain ⟨version,published,rfl,after⟩ := computePublication_eq_ok (toOption_eq_some.mp computed)
    have effect : commitStatements (.publish row.id version published) (some row) connector = some out := written
    simp only [commitStatements] at effect
    split at effect
    next inserted insertion =>
      simp only [Option.filter_some,bne_self_eq_false,Bool.false_eq_true,if_false,Option.some.injEq] at effect
      exact Or.inr ⟨version,published,inserted,effect.symm,insertion,after⟩
    next => cases effect

theorem raises_clientsOf {key : Str} (jobs : Nat → Job key) : Raises DraftRow.revision (clientsOf engine jobs) where
  raises i row seen change rest out computed written := by
    rcases commit_cases computed written with ⟨next,rfl,grows⟩ | ⟨_,_,_,rfl,_⟩
    · exact Or.inr ⟨next,rfl,grows,rfl⟩
    · exact Or.inl rfl

/-- The versions a fresh interleaving has published so far, and that the draft is gone with the first. -/
structure PublishedOnce (before : Transactions) (after : Transactions) : Prop where
  exists_added : ∃ added, after.rest.publishedVersions = before.rest.publishedVersions ++ added ∧
    (added = [] ∨ after.row = none ∧ added.length = 1) ∧ ∀ a ∈ before.rest.publishedVersions, ∀ b ∈ added, Ordered a b

theorem PublishedOnce.commit {key : Str} {jobs : Nat → Job key} {before w : Transactions} {i : Nat} {row : DraftRow}
    {seen : Connector} {change : Statements} {out : Option DraftRow × Connector} (once : PublishedOnce before w)
    (commits : Commits (clientsOf engine jobs) w i row seen change out) (still : w.row = some row) (same : w.rest = seen)
    (computed : (clientsOf engine jobs i).compute row seen = some change) :
    PublishedOnce before (step DraftRow.revision (clientsOf engine jobs) w i) := by
  obtain ⟨added,versions,shape,after⟩ := once
  have none_yet : added = [] := by
    rcases shape with empty | ⟨gone,_⟩
    · exact empty
    · rw [still] at gone
      cases gone
  subst none_yet
  have written := commits.written
  rw [still] at written
  rw [step_commits commits]
  rcases commit_cases computed written with ⟨next,rfl,_⟩ | ⟨version,published,inserted,rfl,insertion,increasing⟩
  · exact ⟨[],versions,Or.inl rfl,after⟩
  · obtain ⟨appended,_,_⟩ := Connector.insertVersion_eq_ok insertion
    have keys : inserted.publishedVersions = before.rest.publishedVersions ++ [version] := by
      rw [List.append_nil] at versions
      rw [← versions,Connector.publishedVersions,appended,Assoc.keys,List.map_append]
      rfl
    rw [← same,versions,List.append_nil] at increasing
    refine ⟨[version],keys,Or.inr ⟨rfl,rfl⟩,?_⟩
    intro a member b only
    rw [List.mem_singleton.mp only]
    exact increasing a member

/-- The interleaving is isolated exactly when every commit finds the draft row as its
transaction read it. -/
theorem isolated_iff_fresh {key : Str} (jobs : Nat → Job key) (row : Option DraftRow) (connector : Connector)
    (schedule : List Nat) :
    Isolated (World.start row connector)
      (run DraftRow.revision (clientsOf engine jobs) (World.start row connector) schedule) ↔
    Fresh DraftRow.revision (clientsOf engine jobs) (World.start row connector) schedule := by
  have sound : Sound DraftRow.revision (clientsOf engine jobs) (World.start row connector) := Sound.start row connector
  constructor
  · intro isolated
    exact (tokens_nodup_iff sound (raises_clientsOf jobs)).mp isolated.oneCommit
  · intro fresh
    have once := run_keeps (PublishedOnce (World.start row connector))
      (fun w i s kept => ⟨kept.exists_added⟩)
      (fun w i _ _ _ _ kept commits still same computed => kept.commit commits still same computed)
      sound (raises_clientsOf jobs) fresh ⟨[],by simp,Or.inl rfl,by simp⟩
    obtain ⟨added,versions,shape,after⟩ := once.exists_added
    have few : added.length ≤ 1 := by
      rcases shape with rfl | ⟨_,one⟩
      · exact Nat.zero_le 1
      · exact one.le
    refine ⟨(tokens_nodup_iff sound (raises_clientsOf jobs)).mpr fresh,added,versions,few,after,?_⟩
    match added,few with
    | [],_ => exact List.Pairwise.nil
    | [version],_ => exact List.pairwise_singleton _ _

end Transactions

section Desk

local instance deskLetters : Unicode := Unicode.asciiOnly
local instance deskModels : Pydantic := Pydantic.exact

/-- Two reviewers set the base URL, both having read revision 1. -/
def deskReviewers : Nat → Job deskKey
  | 0 => .update { connectorKey := deskKey, expectedRevision := 1, updates := [], baseUrl := some oldOrigin } rfl
  | _ => .update { connectorKey := deskKey, expectedRevision := 1, updates := [], baseUrl := some newOrigin } rfl

/-- Both read, both compute, both commit. -/
def overlapping : List Nat := [0,1,0,1,0,1]

def raceTokens (db : Database) (d : ConnectorDraft) : Option (List Nat) :=
  (db.connector deskKey).map fun c =>
    (run DraftRow.revision (clientsOf desk.engine deskReviewers) (World.start (some ⟨1,d⟩) c) overlapping).tokens

def raceChecked : PLift (okWith (fun registered : Database × ConnectorDraft =>
      decide (raceTokens registered.1 registered.2 = some [1,1]))
    (registerConnector deskParsers Database.empty (deskRegistration oldOrigin) deskTime) = true) :=
  ⟨by decide +kernel⟩

/-- The second commit overwrites the first: the statement names the row only. -/
theorem update_lost : ∃ db d c,
    registerConnector deskParsers Database.empty (deskRegistration oldOrigin) deskTime = .ok (db,d) ∧
    db.connector deskKey = some c ∧
    ¬ Isolated (World.start (some ⟨1,d⟩) c)
      (run DraftRow.revision (clientsOf desk.engine deskReviewers) (World.start (some ⟨1,d⟩) c) overlapping) := by
  obtain ⟨⟨db,d⟩,registered,checked⟩ := exists_of_okWith raceChecked.down
  obtain ⟨c,connector,tokens⟩ := Option.map_eq_some_iff.mp (of_decide_eq_true checked)
  refine ⟨db,d,c,registered,connector,?_⟩
  intro isolated
  have distinct := isolated.oneCommit
  rw [tokens] at distinct
  exact absurd distinct (by decide)

end Desk

end ToolLayer.ControlPlane
