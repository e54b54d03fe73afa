import ToolLayer.ControlPlane.Proposals

/-! What is published is what was analyzed plus what was reviewed, in every run. -/
namespace ToolLayer.ControlPlane
open Python Kit Kit.Result OpenApi

def outOfSync : Str := "publication.review_out_of_sync"

section Readiness

variable [Pydantic] [Unicode]

omit [Pydantic] [Unicode] in
theorem outOfSync_not_mem_entryIssues (entry : OperationReview) : outOfSync ∉ entryIssues entry := by
  have apart : ∀ label key : Str, 20 ≤ label.length → label.take 20 ≠ outOfSync.take 20 → outOfSync ≠ label ++ key := by
    intro label key long different same
    have cut := congrArg (List.take 20) same
    rw [List.take_append_of_le_length long] at cut
    exact different cut.symm
  unfold entryIssues
  rw [List.mem_append,not_or]
  constructor
  all_goals
    split
    · rw [List.mem_singleton]
      exact apart _ _ (by decide) (by decide)
    · exact List.not_mem_nil

/-- Where the review names the analyzed operations, readiness never finds them apart. -/
theorem Holds.in_sync {d : ConnectorDraft} {updates : List ReviewUpdate} {proposals : List Proposal}
    (holds : Holds d updates proposals) {baseUrl : Option Str} {issues : List Str}
    (ready : reviewReadiness d.analysis ⟨proposals.map (fun p => p.review.decided updates)⟩ baseUrl = .ok issues) :
    outOfSync ∉ issues := by
  unfold reviewReadiness at ready
  rw [holds.analyzed,ok_bind] at ready
  have keys : (proposals.map Proposal.stored).map (·.1) = proposals.map Proposal.key := by
    rw [List.map_map]
    rfl
  have reviewed : (proposals.map (fun p => p.review.decided updates)).map OperationReview.operationKey =
      proposals.map Proposal.key := by
    rw [List.map_map]
    rfl
  cases ready
  have same : ∀ keys : List Str, (keys.all keys.contains && keys.all keys.contains) = true := by simp
  simp only [keys,reviewed,same,if_true,List.append_nil,List.mem_append,not_or]
  refine ⟨⟨?_,?_⟩,?_⟩
  · split
    · decide
    · exact List.not_mem_nil
  · split
    · decide
    · exact List.not_mem_nil
  · rw [List.mem_flatMap]
    rintro ⟨entry,_,inside⟩
    exact outOfSync_not_mem_entryIssues entry inside

end Readiness

section Publication

variable [Pydantic] [Unicode] {engine : SchemaEngine}

theorem Holds.keys {d : ConnectorDraft} {updates : List ReviewUpdate} {proposals : List Proposal}
    (_ : Holds d updates proposals) : Assoc.keys (proposals.map Proposal.stored) = proposals.map Proposal.key := by
  rw [Assoc.keys,List.map_map]
  rfl

/-- The stored tool of a proposal is found under its key. -/
theorem Holds.get_stored {d : ConnectorDraft} {updates : List ReviewUpdate} {proposals : List Proposal}
    (holds : Holds d updates proposals) {p : Proposal} (member : p ∈ proposals) :
    Assoc.get p.key (proposals.map Proposal.stored) = some (.dict (storedTool p.tool p.schema)) := by
  refine Assoc.get_of_mem (holds.keys.symm ▸ holds.distinct) ?_
  rw [← p.stored_eq]
  exact List.mem_map_of_mem member

/-- A published document has the tools of the included reviews, in their order. -/
theorem Holds.published {c : Connector} {d : ConnectorDraft} {p : Publication} {now : Timestamp} {version : Str}
    {row : PublishedVersion} {updates : List ReviewUpdate} {proposals : List Proposal} (holds : Holds d updates proposals)
    (done : preparedVersion engine c d p now = .ok (version,row)) : ∃ tools, Dict.get row.document "tools" = .list tools ∧
      List.Forall₂ (fun (r : OperationReview) tool => ∃ before after,
          Assoc.get r.operationKey (proposals.map Proposal.stored) = some (.dict before) ∧ tool = .dict after ∧
            ReviewedAs before r after)
        ((proposals.map (fun q => q.review.decided updates)).filter OperationReview.included) tools := by
  obtain ⟨review,built,read,made,document,_⟩ := preparedVersion_built done
  rw [holds.reviewed] at read
  cases read
  obtain ⟨baseUrl,entries,tools,_,analyzed,reviewed,shape,_⟩ := made.exists_tools
  change analyzedOperations d.analysis = .ok entries at analyzed
  rw [holds.analyzed] at analyzed
  cases analyzed
  rw [toolsByKey_of_nodup (holds.keys.symm ▸ holds.distinct)] at reviewed
  refine ⟨tools,by rw [document,shape]; rfl,?_⟩
  have each_ := (List.forall₂_and_left _ _).mpr ⟨fun _ member => member,each_eq_ok.mp reviewed⟩
  refine each_.imp (fun r tool ⟨member,one⟩ => ?_)
  obtain ⟨q,inside,rfl⟩ := List.mem_map.mp (List.mem_of_mem_filter member)
  have stored := holds.get_stored inside
  obtain ⟨after,made,as_⟩ := reviewedTool_eq_ok (holds.plain q inside) stored (by simp [storedTool])
    ⟨storedProvenance q.tool.provenance,rfl,by simp [storedProvenance]⟩ one
  exact ⟨_,after,stored,made,as_⟩

end Publication

section Runs

variable [Pydantic] [Unicode] (setting : Setting) (key : Str)

/-- What is decided for the draft of a connector after a call: a registration starts anew,
an accepted update adds to it. -/
def Call.decisions (call : Call) (db : Database) (sofar : List ReviewUpdate) : List ReviewUpdate :=
  match call.run setting db,call.request with
  | .ok _,.register r _ => if r.connectorKey = key then [] else sofar
  | .ok _,.update u _ => if u.connectorKey = key then sofar ++ u.updates else sofar
  | _,_ => sofar

/-- The decisions on the draft of a connector after a run, in the order they were accepted. -/
def decisions : Database → List ReviewUpdate → List Call → List ReviewUpdate
  | _,sofar,[] => sofar
  | db,sofar,call::rest => decisions (call.after setting db) (call.decisions setting key db sofar) rest

/-- The draft of a connector holds its analyzed tools, reviewed as was decided. -/
def HoldsDraft (db : Database) (updates : List ReviewUpdate) : Prop :=
  ∀ d, storedDraft db key = some d → ∃ proposals, Holds d updates proposals

/-- The registration the draft of a connector is from after a call. -/
def Call.registration (call : Call) (db : Database) (sofar : Option Registration) : Option Registration :=
  match call.run setting db,call.request with
  | .ok _,.register r _ => if r.connectorKey = key then some r else sofar
  | _,_ => sofar

/-- The latest accepted registration of a connector in a run. -/
def lastRegistration : Database → Option Registration → List Call → Option Registration
  | _,sofar,[] => sofar
  | db,sofar,call::rest => lastRegistration (call.after setting db) (call.registration setting key db sofar) rest

variable {key}

section Drafts

variable {Q : ConnectorDraft → Prop}

omit [Pydantic] [Unicode] in
theorem drafts_of_same {db next : Database} (holds : ∀ d, storedDraft db key = some d → Q d)
    (same : ∀ d, storedDraft next key = some d → storedDraft db key = some d) :
    ∀ d, storedDraft next key = some d → Q d := fun d found => holds d (same d found)

omit [Pydantic] [Unicode] in
/-- A connector written back with the draft it had, or without one. -/
theorem drafts_putConnector {db : Database} {other : Str} {c found : Connector}
    (holds : ∀ d, storedDraft db key = some d → Q d) (stored : db.connector other = some found)
    (kept : c.draft = found.draft ∨ c.draft = none) : ∀ d, storedDraft (db.putConnector other c) key = some d → Q d := by
  refine drafts_of_same holds (fun d there => ?_)
  rw [storedDraft_putConnector] at there
  split at there
  next same =>
    rcases kept with draft | empty
    · rw [storedDraft,same,stored,Option.bind_some,← draft]
      exact there
    · rw [empty] at there
      cases there
  next => exact there

end Drafts

/-- What a registration makes true of its draft, and every accepted update of it keeps true of the
decisions so far. -/
structure Kept (Q : Option Registration → List ReviewUpdate → ConnectorDraft → Prop) : Prop where
  registered : ∀ {db next : Database} {r : Registration} {now : Timestamp} {d : ConnectorDraft},
    registerConnector setting.parsers db r now = .ok (next,d) → Q (some r) [] d
  updated : ∀ {db next : Database} {u : DraftUpdate} {found d : ConnectorDraft} {origin : Option Registration}
    {updates : List ReviewUpdate}, Q origin updates found → storedDraft db u.connectorKey = some found → u.Accepts →
      updateReview db u = .ok (next,d) → Q origin (updates ++ u.updates) d

variable {setting} {Q : Option Registration → List ReviewUpdate → ConnectorDraft → Prop}

/-- One call keeps what holds of a draft in step with its registration and the decisions. -/
theorem Kept.after (kept : Kept setting Q) (call : Call) {db : Database} {origin : Option Registration}
    {updates : List ReviewUpdate} (holds : ∀ d, storedDraft db key = some d → Q origin updates d) :
    ∀ d, storedDraft (call.after setting db) key = some d →
      Q (call.registration setting key db origin) (call.decisions setting key db updates) d := by
  unfold Call.after Call.decisions Call.registration
  split
  next next done =>
    obtain ⟨request,now⟩ := call
    rw [done]
    cases request with
    | register r admitted =>
      obtain ⟨⟨_,d⟩,run,rfl⟩ := map_eq_ok.mp done
      have made := kept.registered run
      obtain ⟨_,_,_,_,_,_,_,_,_,_,_,_,_,rfl⟩ := (registerConnector_eq_ok run).exists_analysis
      intro e found
      rw [storedDraft_putConnector] at found
      dsimp only
      split
      next same =>
        rw [if_pos same.symm] at found
        cases found
        exact made
      next different =>
        rw [if_neg (Ne.symm different)] at found
        exact holds e found
    | update u admitted =>
      obtain ⟨⟨_,d⟩,run,rfl⟩ := map_eq_ok.mp done
      have updated := fun found (holds : Q origin updates found) stored => kept.updated holds stored admitted run
      obtain ⟨c,found,_,connector,draft,_,_,_,_,_,_,rfl⟩ := (updateReview_eq_ok run).exists_draft
      intro e there
      rw [storedDraft_putConnector] at there
      dsimp only
      split
      next same =>
        rw [if_pos same.symm] at there
        cases there
        have stored : storedDraft db u.connectorKey = some found := by
          rw [storedDraft,connector,Option.bind_some,draft]
        exact updated found (holds found (same ▸ stored)) stored
      next different =>
        rw [if_neg (Ne.symm different)] at there
        exact holds e there
    | publish p admitted =>
      obtain ⟨⟨_,row⟩,run,rfl⟩ := map_eq_ok.mp done
      obtain ⟨c,_,_,_,_,stored,_,_,_,_,rfl⟩ := (publishDraft_eq_ok setting.engine run).exists_draft
      exact drafts_putConnector holds stored (Or.inr rfl)
    | disable connectorKey version reason =>
      obtain ⟨⟨_,row⟩,run,rfl⟩ := map_eq_ok.mp done
      rcases disableVersion_eq_ok run with rfl | ⟨c,_,stored,_,_,rfl⟩
      · exact holds
      · exact drafts_putConnector holds stored (Or.inl rfl)
    | createDeployment deploymentKey displayName description admitted =>
      obtain ⟨⟨_,made⟩,run,rfl⟩ := map_eq_ok.mp done
      obtain ⟨_,rfl⟩ := createDeployment_eq_ok run
      exact holds
    | createSnapshot deploymentKey selections createdBy signingKey =>
      obtain ⟨⟨_,made⟩,run,rfl⟩ := map_eq_ok.mp done
      obtain ⟨_,_,_,_,_,_,_,_,_,_,_,_,_,_,_,rfl⟩ := (createSnapshot_eq_ok run).exists_document
      exact holds
  next e failed =>
    rw [failed]
    exact holds

theorem Kept.run (kept : Kept setting Q) (calls : List Call) {db : Database} {origin : Option Registration}
    {updates : List ReviewUpdate} (holds : ∀ d, storedDraft db key = some d → Q origin updates d) :
    ∀ d, storedDraft (runCalls setting db calls) key = some d →
      Q (lastRegistration setting key db origin calls) (decisions setting key db updates calls) d := by
  induction calls generalizing db origin updates with
  | nil => exact holds
  | cons call rest ih => exact ih (kept.after call holds)

variable (setting)

theorem kept_holds : Kept setting (fun _ updates d => ∃ proposals, Holds d updates proposals) where
  registered run := exists_holds_registered run
  updated := by
    rintro db next u found d _ updates ⟨proposals,holds⟩ stored admitted run
    exact ⟨proposals,holds.update stored admitted run⟩

/-- One call keeps the draft in step with the decisions. -/
theorem HoldsDraft.after (call : Call) {db : Database} {updates : List ReviewUpdate} (holds : HoldsDraft key db updates) :
    HoldsDraft key (call.after setting db) (call.decisions setting key db updates) :=
  @Kept.after _ _ setting key _ (kept_holds setting) call db none updates holds

theorem HoldsDraft.run (calls : List Call) {db : Database} {updates : List ReviewUpdate} (holds : HoldsDraft key db updates) :
    HoldsDraft key (runCalls setting db calls) (decisions setting key db updates calls) :=
  @Kept.run _ _ setting key _ (kept_holds setting) calls db none updates holds

/-- A draft and its publication, given the decisions on it so far. The review has the analyzed
operations, each decided last as its field says, and a published document has the tools of
the included ones in that order. -/
structure Faithful (key : Str) (db : Database) (updates : List ReviewUpdate) : Prop where
  inSync : ∀ d, storedDraft db key = some d → ∃ entries initial, analyzedOperations d.analysis = .ok entries ∧
    buildInitialReview d.analysis = .ok initial ∧
    ReviewState.fromDict d.review = .ok ⟨initial.operations.map (fun r => r.decided updates)⟩ ∧
    initial.operations.map OperationReview.operationKey = Assoc.keys entries ∧ (Assoc.keys entries).Nodup
  ready : ∀ d review baseUrl issues, storedDraft db key = some d → ReviewState.fromDict d.review = .ok review →
    reviewReadiness d.analysis review baseUrl = .ok issues → outOfSync ∉ issues
  found : ∀ d review entries, storedDraft db key = some d → ReviewState.fromDict d.review = .ok review →
    analyzedOperations d.analysis = .ok entries →
    ∀ r ∈ review.operations, (Assoc.get r.operationKey (toolsByKey entries)).isSome = true
  published : ∀ p now next row, p.connectorKey = key → publishDraft setting.engine db p now = .ok (next,row) →
    ∃ d entries initial tools, storedDraft db key = some d ∧ analyzedOperations d.analysis = .ok entries ∧
      buildInitialReview d.analysis = .ok initial ∧ Dict.get row.document "tools" = .list tools ∧
      List.Forall₂ (fun (r : OperationReview) tool => ∃ before after,
          Assoc.get r.operationKey entries = some (.dict before) ∧ tool = .dict after ∧ ReviewedAs before r after)
        ((initial.operations.map (fun r => r.decided updates)).filter OperationReview.included) tools

theorem Holds.initial {d : ConnectorDraft} {updates : List ReviewUpdate} {proposals : List Proposal}
    (holds : Holds d updates proposals) : buildInitialReview d.analysis = .ok ⟨proposals.map Proposal.review⟩ := by
  have each_ : each initialEntry (proposals.map Proposal.stored) = .ok (proposals.map Proposal.review) := by
    rw [each_eq_ok,List.forall₂_map_left_iff,List.forall₂_map_right_iff,List.forall₂_same]
    exact fun p _ => initialEntry_stored p
  rw [buildInitialReview,holds.analyzed,ok_bind,each_]
  rfl

theorem published_faithful (key : Str) (calls : List Call) : Faithful setting key
    (runCalls setting Database.empty calls) (decisions setting key Database.empty [] calls) := by
  have held : HoldsDraft key (runCalls setting Database.empty calls) (decisions setting key Database.empty [] calls) :=
    HoldsDraft.run setting calls (fun d none_ => nomatch none_)
  have sound := (runCalls_sound setting calls Database.Sound.empty).1
  refine ⟨?_,?_,?_,?_⟩
  · intro d stored
    obtain ⟨proposals,holds⟩ := held d stored
    refine ⟨_,_,holds.analyzed,holds.initial,?_,?_,holds.keys.symm ▸ holds.distinct⟩
    · rw [holds.reviewed,List.map_map]
      rfl
    · rw [holds.keys,List.map_map]
      rfl
  · intro d review baseUrl issues stored read ready
    obtain ⟨proposals,holds⟩ := held d stored
    rw [holds.reviewed] at read
    cases read
    exact holds.in_sync ready
  · intro d review entries stored read analyzed r member
    obtain ⟨proposals,holds⟩ := held d stored
    rw [holds.reviewed] at read
    cases read
    rw [holds.analyzed] at analyzed
    cases analyzed
    obtain ⟨p,inside,rfl⟩ := List.mem_map.mp member
    rw [toolsByKey_of_nodup (holds.keys.symm ▸ holds.distinct)]
    exact Option.isSome_iff_exists.mpr ⟨_,holds.get_stored inside⟩
  · rintro p now next row rfl done
    obtain ⟨c,_,d,version,prepared,connector,draft,prepare,written,_⟩ := (publishDraft_eq_ok setting.engine done).exists_draft
    have stored : storedDraft (runCalls setting Database.empty calls) p.connectorKey = some d := by
      rw [storedDraft,connector,Option.bind_some,draft]
    obtain ⟨proposals,holds⟩ := held d stored
    obtain ⟨_,same⟩ := sealed_preparedVersion prepare ((sound.connectors _ c connector).draft d draft)
    obtain ⟨tools,named,related⟩ := holds.published prepare
    refine ⟨d,_,_,tools,stored,holds.analyzed,holds.initial,?_,?_⟩
    · rw [written,same]
      exact named
    · rw [List.map_map]
      exact related

end Runs

end ToolLayer.ControlPlane
