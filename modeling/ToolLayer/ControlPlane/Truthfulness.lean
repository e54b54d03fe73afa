import ToolLayer.ControlPlane.Faithfulness
import ToolLayer.ControlPlane.Revisions
import ToolLayer.OpenApi.Prose

/-! Whether a published description is whose it says it is, in every run. -/
namespace ToolLayer.ControlPlane
open Python Kit Kit.Result OpenApi

/-- A reviewer's own text for an operation, among some updates. -/
def Submitted (key text : Str) (updates : List ReviewUpdate) : Prop :=
  ∃ u ∈ updates, u.operationKey = key ∧ u.description.map Str.strip = some text

/-- The text of an operation after some updates: the last one submitted, or the converter's own. -/
def textAfter (operation : Dict) (path : Str) (method : HttpMethod) (updates : List ReviewUpdate) : Str :=
  latest (fun u => u.description.map Str.strip) (descriptionOf operation method path)
    (updates.filter (fun u => u.operationKey == operationKey path method.lower))

/-- An update that names the document as the source only of the document's own text, and gives a
placeholder no other origin unless a reviewer wrote it. -/
structure HonestUpdate (operation : Dict) (path : Str) (method : HttpMethod) (before : List ReviewUpdate) (u : ReviewUpdate) :
    Prop where
  source : u.descriptionOrigin = some (Str.lit "source") → ∃ text, proseOf operation = some text ∧
    textAfter operation path method (before ++ [u]) = text.take 1024
  generated : u.description = none → proseOf operation = none →
    textAfter operation path method before = placeholderOf method path →
    ∀ origin, u.descriptionOrigin = some origin → origin = Str.lit "generated" ∨
      Submitted (operationKey path method.lower) (placeholderOf method path) before

section Entries

variable [Unicode]

def HonestUpdates (loaded : LoadedDocument) (updates : List ReviewUpdate) : Prop :=
  ∀ path method operation before u after, documentOperation loaded path method = some operation →
    updates = before ++ u::after → u.operationKey = operationKey path method.lower →
      HonestUpdate operation path method before u

/-- A published tool whose text is the document's where it says so, and no placeholder of the
converter's unless a reviewer wrote it. -/
def TruthfulTool (loaded : LoadedDocument) (updates : List ReviewUpdate) (tool : Value) : Prop :=
  ∃ members provenance path method operation, tool = .dict members ∧ Dict.get members "provenance" = .dict provenance ∧
    Dict.get provenance "source_path" = .str path ∧ Dict.get provenance "source_method" = .str (HttpMethod.lower method) ∧
    documentOperation loaded path method = some operation ∧
    (Dict.get provenance "description_origin" = .str "source" → ∃ text, proseOf operation = some text ∧
      Dict.get members "description" = .str (text.take 1024)) ∧
    (proseOf operation = none → Dict.get members "description" = .str (placeholderOf method path) →
      Submitted (operationKey path method.lower) (placeholderOf method path) updates)

/-- The same of a review, which may still call a placeholder generated. -/
structure TruthfulReview (operation : Dict) (path : Str) (method : HttpMethod) (updates : List ReviewUpdate)
    (r : OperationReview) : Prop where
  source : r.descriptionOrigin = .str "source" → ∃ text, proseOf operation = some text ∧ r.description = text.take 1024
  generated : proseOf operation = none → r.description = placeholderOf method path →
    r.descriptionOrigin = .str "generated" ∨
      Submitted (operationKey path method.lower) (placeholderOf method path) updates

theorem HonestUpdates.front {loaded : LoadedDocument} {updates : List ReviewUpdate} {u : ReviewUpdate}
    (honest : HonestUpdates loaded (updates ++ [u])) : HonestUpdates loaded updates := by
  intro path method operation before v after there split_ named
  exact honest path method operation before v (after ++ [u]) there (by rw [split_,List.append_assoc]; rfl) named

omit [Unicode] in
theorem Submitted.append {key text : Str} {updates : List ReviewUpdate} (submitted : Submitted key text updates)
    (more : List ReviewUpdate) : Submitted key text (updates ++ more) := by
  obtain ⟨u,member,same⟩ := submitted
  exact ⟨u,List.mem_append_left _ member,same⟩

variable [Pydantic]

/-- A proposal that is the conversion of an operation of the document. -/
structure Proposal.From (p : Proposal) (loaded : LoadedDocument) (path : Str) (method : HttpMethod) (operation : Dict) : Prop where
  key : p.key = operationKey path method.lower
  there : documentOperation loaded path method = some operation
  exists_pathItem : ∃ pathItem, convertOperation path method.lower pathItem operation = .ok p.tool

theorem description_decided {p : Proposal} {loaded : LoadedDocument} {path : Str} {method : HttpMethod} {operation : Dict}
    (from_ : p.From loaded path method operation) (updates : List ReviewUpdate) :
    (p.review.decided updates).description = textAfter operation path method updates := by
  obtain ⟨_,converted⟩ := from_.exists_pathItem
  obtain ⟨description,_⟩ := convertOperation_words converted
  rw [textAfter,← from_.key,← description]
  rfl

omit [Unicode] [Pydantic] in
/-- An edited description is marked as the document's only by an update that says so. -/
theorem ReviewUpdate.origin_of_source {r : OperationReview} {u : ReviewUpdate} {given : Str} (described : u.description = some given)
    (source : (r.after u).descriptionOrigin = .str "source") : u.descriptionOrigin = some (Str.lit "source") := by
  simp only [OperationReview.after,ReviewUpdate.origin,described,Option.map_some,Option.getD_some] at source
  cases said : u.descriptionOrigin with
  | none =>
    rw [said] at source
    exact absurd (Value.str.inj source) (by decide)
  | some s =>
    rw [said] at source
    cases s with
    | nil => exact absurd (Value.str.inj source) (by decide)
    | cons c rest => exact congrArg some (Value.str.inj source)

/-- Honest updates keep a review truthful. -/
theorem Proposal.From.truthful {p : Proposal} {loaded : LoadedDocument} {path : Str} {method : HttpMethod} {operation : Dict}
    (from_ : p.From loaded path method operation) {updates : List ReviewUpdate} (honest : HonestUpdates loaded updates) :
    TruthfulReview operation path method updates (p.review.decided updates) := by
  induction updates using List.reverseRecOn with
  | nil =>
    obtain ⟨_,converted⟩ := from_.exists_pathItem
    obtain ⟨description,_,_,origin⟩ := convertOperation_words converted
    rw [hasProse_eq] at origin
    have given : p.review.descriptionOrigin = .str p.tool.provenance.descriptionOrigin.text := rfl
    rw [OperationReview.decided_nil]
    constructor
    · intro source
      cases said : proseOf operation with
      | none =>
        rw [given,origin,said] at source
        exact absurd (Value.str.inj source) (by decide)
      | some text => exact ⟨text,rfl,description.trans (descriptionOf_prose said method path)⟩
    · intro silent _
      rw [given,origin,silent]
      exact Or.inl rfl
  | append_singleton updates u ih =>
    have sofar := ih honest.front
    have text := description_decided from_ (updates ++ [u])
    rw [OperationReview.decided_concat] at text ⊢
    split
    next named =>
      rw [if_pos named] at text
      have step := honest path method operation updates u [] from_.there rfl (named.symm.trans from_.key)
      cases described : u.description with
      | some given =>
        constructor
        · intro source
          rw [text]
          exact step.source (ReviewUpdate.origin_of_source described source)
        · intro _ same
          refine Or.inr ⟨u,List.mem_append_right _ (List.mem_singleton_self u),named.symm.trans from_.key,?_⟩
          have stripped : ((p.review.decided updates).after u).description = given.strip := by
            simp [OperationReview.after,described]
          rw [described,← same,stripped]
          rfl
      | none =>
        have kept : ((p.review.decided updates).after u).description = (p.review.decided updates).description := by
          simp [OperationReview.after,described]
        have origin : ((p.review.decided updates).after u).descriptionOrigin =
            (u.descriptionOrigin.map Value.str).getD (p.review.decided updates).descriptionOrigin := by
          simp [OperationReview.after,ReviewUpdate.origin,described]
        cases changed : u.descriptionOrigin with
        | none =>
          rw [changed] at origin
          refine ⟨fun source => ?_,fun silent same => ?_⟩
          · rw [kept]
            exact sofar.source (origin.symm.trans source)
          · rw [kept] at same
            rw [origin]
            exact (sofar.generated silent same).imp_right (fun submitted => submitted.append [u])
        | some given =>
          rw [changed] at origin
          refine ⟨fun source => ?_,fun silent same => ?_⟩
          · rw [origin] at source
            rw [text]
            exact step.source (changed.trans (congrArg some (Value.str.inj source)))
          · rw [kept,description_decided from_] at same
            rw [origin]
            rcases step.generated described silent same given changed with generated | submitted
            · exact Or.inl (congrArg Value.str generated)
            · exact Or.inr (submitted.append [u])
    next => exact ⟨sofar.source,fun silent same => (sofar.generated silent same).imp_right (fun submitted => submitted.append [u])⟩

end Entries

section Publications

variable [Pydantic] [Unicode] {setting : Setting}

/-- A draft with the document it is from, each of its proposals made of an operation there. -/
structure Traced (setting : Setting) (origin : Option Registration) (updates : List ReviewUpdate) (d : ConnectorDraft) : Prop where
  exists_proposals : ∃ r loaded analysis proposals, origin = some r ∧ r.Analyzed setting.parsers loaded analysis ∧
    Holds d updates proposals ∧ ∀ p ∈ proposals, ∃ path method operation, Proposal.From p loaded path method operation

theorem kept_traced : Kept setting (Traced setting) where
  registered := by
    intro db next r now d run
    obtain ⟨loaded,analysis,proposals,analyzed,holds,made⟩ := exists_holds_analyzed run
    have sound := analyzeDocument_sound analyzed.analyze
    have documented := analyzeDocument_documented analyzed.analyze
    refine ⟨r,loaded,analysis,proposals,rfl,analyzed,holds,fun p member => ?_⟩
    obtain ⟨o,inside,key,tool⟩ := made p member
    obtain ⟨pathItem,operation,there,converted⟩ := documented o inside p.tool tool
    exact ⟨o.path,o.method,operation,key.symm.trans (sound.entries o inside).1.key,there,pathItem,converted⟩
  updated := by
    rintro db next u found d origin updates ⟨r,loaded,analysis,proposals,registered,analyzed,holds,made⟩ stored admitted run
    exact ⟨r,loaded,analysis,proposals,registered,analyzed,holds.update stored admitted run,made⟩

omit [Pydantic] in
/-- A ready review has no issue with any included entry. -/
theorem entryIssues_of_ready {analysis : Dict} {state : ReviewState} {baseUrl : Option Str}
    (ready : reviewReadiness analysis state baseUrl = .ok []) : ∀ r ∈ state.included, entryIssues r = [] := by
  obtain ⟨analyzed,_,issues⟩ := bind_eq_ok.mp ready
  have none_ := List.append_eq_nil_iff.mp (Except.ok.inj issues)
  exact List.flatMap_eq_nil_iff.mp none_.2

omit [Pydantic] [Unicode] in
theorem not_generated {r : OperationReview} (clear : entryIssues r = []) : r.descriptionOrigin ≠ .str "generated" := by
  intro generated
  have first := (List.append_eq_nil_iff.mp clear).1
  rw [generated,if_pos (Value.pyEq_str.mpr rfl)] at first
  exact absurd first (by simp)

omit [Unicode] in
theorem storedProvenance_path (p : ToolProvenance) :
    Dict.get (storedProvenance p) "source_path" = .str p.sourcePath := by
  obtain ⟨_,bounded,_⟩ := p.accepted
  change Value.reload (.str p.sourcePath) = _
  rw [Value.reload,Str.paired_scalar (scalar_of_boundedText bounded)]

/-- A truthful review that is ready is published as a truthful tool. -/
theorem TruthfulReview.tool {p : Proposal} {loaded : LoadedDocument} {path : Str} {method : HttpMethod} {operation : Dict}
    (from_ : p.From loaded path method operation) {updates : List ReviewUpdate} {r : OperationReview} {after : Dict}
    (truthful : TruthfulReview operation path method updates r) (clear : entryIssues r = [])
    (reviewed : ReviewedAs (storedTool p.tool p.schema) r after) : TruthfulTool loaded updates (.dict after) := by
  obtain ⟨_,converted⟩ := from_.exists_pathItem
  obtain ⟨_,sourcePath,sourceMethod,_⟩ := convertOperation_words converted
  obtain ⟨before,provenance,stored,written,⟨_,kept⟩,origin⟩ := reviewed.exists_provenance
  cases stored
  refine ⟨after,provenance,path,method,operation,rfl,written,?_,?_,from_.there,?_,?_⟩
  · rw [kept _ (by decide),storedProvenance_path,sourcePath]
  · rw [kept _ (by decide),← sourceMethod]
    rfl
  · intro source
    obtain ⟨text,said,same⟩ := truthful.source (origin.symm.trans source)
    exact ⟨text,said,by rw [reviewed.description,same]⟩
  · intro silent same
    rw [reviewed.description] at same
    exact (truthful.generated silent (Value.str.inj same)).resolve_left (not_generated clear)

variable (setting)

/-- Every publication of a connector after a run says truthfully whose its descriptions are. -/
def TruthfulPublications (key : Str) (calls : List Call) : Prop :=
  ∀ p now next row, p.connectorKey = key →
    publishDraft setting.engine (runCalls setting Database.empty calls) p now = .ok (next,row) →
    ∃ r loaded tools, lastRegistration setting key Database.empty none calls = some r ∧
      loadDocument setting.parsers { maxBytes := r.maxSourceBytes } r.sourceBytes r.sourceFilename = .ok loaded ∧
      Dict.get row.document "tools" = .list tools ∧
      ∀ tool ∈ tools, TruthfulTool loaded (decisions setting key Database.empty [] calls) tool

/-- A run whose accepted updates of the registered draft are all honest. -/
def HonestRun (key : Str) (calls : List Call) : Prop :=
  ∀ r loaded, lastRegistration setting key Database.empty none calls = some r →
    loadDocument setting.parsers { maxBytes := r.maxSourceBytes } r.sourceBytes r.sourceFilename = .ok loaded →
      HonestUpdates loaded (decisions setting key Database.empty [] calls)

theorem published_truthful (key : Str) (calls : List Call) (honest : HonestRun setting key calls) :
    TruthfulPublications setting key calls := by
  rintro p now next row rfl done
  have traced := @Kept.run _ _ setting p.connectorKey _ kept_traced calls Database.empty none [] (fun d none_ => nomatch none_)
  have sound := (runCalls_sound setting calls Database.Sound.empty).1
  obtain ⟨c,_,d,version,prepared,connector,draft,prepare,written,_⟩ := (publishDraft_eq_ok setting.engine done).exists_draft
  have stored : storedDraft (runCalls setting Database.empty calls) p.connectorKey = some d := by
    rw [storedDraft,connector,Option.bind_some,draft]
  obtain ⟨r,loaded,analysis,proposals,registered,analyzed,holds,made⟩ := (traced d stored).exists_proposals
  obtain ⟨_,same⟩ := sealed_preparedVersion prepare ((sound.connectors _ c connector).draft d draft)
  obtain ⟨tools,named,related⟩ := holds.published prepare
  obtain ⟨review,built,read,checked,_⟩ := preparedVersion_built prepare
  rw [holds.reviewed] at read
  cases read
  have clear := entryIssues_of_ready checked.ready
  refine ⟨r,loaded,tools,registered,analyzed.load,by rw [written,same]; exact named,fun tool member => ?_⟩
  obtain ⟨review,included,before,after,found,rfl,reviewed⟩ := exists_left related member
  obtain ⟨q,inside,rfl⟩ := List.mem_map.mp (List.mem_of_mem_filter included)
  obtain ⟨path,method,operation,from_⟩ := made q inside
  have stored := holds.get_stored inside
  rw [show (q.review.decided _).operationKey = q.key from rfl,stored] at found
  cases found
  exact (from_.truthful (honest r loaded registered analyzed.load)).tool from_ (clear _ included) reviewed

variable {setting}

/-- Every decision was in an update of the run. -/
theorem mem_decisions {key : Str} {u : ReviewUpdate} {calls : List Call} {db : Database} {sofar : List ReviewUpdate}
    (member : u ∈ decisions setting key db sofar calls) :
    u ∈ sofar ∨ ∃ call ∈ calls, ∃ d admitted, call.request = .update d admitted ∧ u ∈ d.updates := by
  induction calls generalizing db sofar with
  | nil => exact Or.inl member
  | cons call rest ih =>
    rcases ih member with decided | ⟨later,inside,given⟩
    · have step : u ∈ sofar ∨ ∃ d admitted, call.request = .update d admitted ∧ u ∈ d.updates := by
        unfold Call.decisions at decided
        split at decided
        next r _ _ _ =>
          split at decided
          next => cases decided
          next => exact Or.inl decided
        next d admitted _ request =>
          split at decided
          next => exact (List.mem_append.mp decided).imp_right (fun new => ⟨d,admitted,request,new⟩)
          next => exact Or.inl decided
        next => exact Or.inl decided
      exact step.imp_right (fun given => ⟨call,List.mem_cons_self,given⟩)
    · exact Or.inr ⟨later,List.mem_cons_of_mem _ inside,given⟩

variable (setting)

/-- Updates that leave the origin to the Control Plane are honest. -/
theorem honestRun_of_no_origin {key : Str} {calls : List Call}
    (silent : ∀ call ∈ calls, ∀ d admitted, call.request = .update d admitted → ∀ u ∈ d.updates, u.descriptionOrigin = none) :
    HonestRun setting key calls := by
  intro r loaded _ _ path method operation before u after _ split_ _
  have member : u ∈ decisions setting key Database.empty [] calls := by
    rw [split_]
    exact List.mem_append_right _ List.mem_cons_self
  have none_ : u.descriptionOrigin = none := by
    rcases mem_decisions member with old | ⟨call,inside,d,admitted,request,given⟩
    · cases old
    · exact silent call inside d admitted request u given
  exact ⟨fun given => (nomatch none_.symm.trans given),fun _ _ _ origin given => (nomatch none_.symm.trans given)⟩

end Publications

section Desk

local instance silentTables : Unicode := Unicode.asciiOnly
local instance silentFields : Pydantic := Pydantic.exact

/-- A reviewer rewrites the description and leaves the origin out. -/
def rewritten : DraftUpdate where
  connectorKey := deskKey
  expectedRevision := 1
  updates := [{ operationKey := "get /health", description := some "Tells whether the service is up." }]

def deskRewrite : Call := ⟨.update rewritten (by decide),deskTime⟩

theorem published_truthful_desk : TruthfulPublications desk deskKey [deskRegisterOld,deskRewrite] :=
  published_truthful desk deskKey [deskRegisterOld,deskRewrite] (honestRun_of_no_origin desk (by
    intro call member d admitted request u given
    rcases List.mem_cons.mp member with rfl | member
    · cases request
    · cases List.mem_singleton.mp member
      cases request
      cases List.mem_singleton.mp given
      rfl))

/-- A description of one operation that says nothing about it. -/
def silentDocument : Value :=
  .dict [("openapi",.str "3.0.0"),("paths",.dict [("/health",.dict [("get",.dict [])])]),
    ("servers",.list [.dict [("url",.str oldOrigin)]])]

def silentText : Str :=
  Str.lit ("\x7b\"openapi\":\"3.0.0\",\"paths\":\x7b\"/health\":\x7b\"get\":\x7b\x7d\x7d\x7d," ++
    "\"servers\":[\x7b\"url\":\"") ++ oldOrigin ++ Str.lit "\"\x7d]\x7d"

def silentParsers : Parsers where
  json text := if text = silentText then .ok ⟨silentDocument,by decide⟩ else .error (invalidDocument "not read here")
  yaml _ := .error (invalidDocument "not read here")

def silentDesk : Setting := ⟨silentParsers,SchemaSubset.engine,deskScheme⟩

def silentRegistration : Registration :=
  { connectorKey := deskKey, sourceBytes := Utf8.bytes silentText, sourceFilename := "openapi.json" }

/-- The reviewer calls the placeholder a human's, and writes nothing. -/
def relabel : DraftUpdate where
  connectorKey := deskKey
  expectedRevision := 1
  updates := [{ operationKey := "get /health", descriptionOrigin := some "human" }]

def relabelled : List Call :=
  [⟨.register silentRegistration (by decide +kernel),deskTime⟩,⟨.update relabel (by decide),deskTime⟩]

def relabelledPublication : Publication := { connectorKey := deskKey, expectedRevision := 2, publishedBy := "admin" }

/-- A tool with the placeholder of `GET /health`. -/
def isPlaceholder (tool : Value) : Bool :=
  match tool with
  | .dict members =>
    Value.pyEq (Dict.get members "description") (.str (placeholderOf .get "/health")) &&
      match Dict.get members "provenance" with
      | .dict provenance => Value.pyEq (Dict.get provenance "source_path") (.str "/health") &&
          Value.pyEq (Dict.get provenance "source_method") (.str "get")
      | _ => false
  | _ => false

/-- What the run publishes, and what the registered document says of the operation. -/
def publishRelabelled : Except PyExc (LoadedDocument × PublishedVersion) := do
  let loaded ← loadDocument silentParsers { maxBytes := silentRegistration.maxSourceBytes } silentRegistration.sourceBytes
    silentRegistration.sourceFilename
  let (_,row) ← publishDraft silentDesk.engine (runCalls silentDesk Database.empty relabelled) relabelledPublication deskTime
  return (loaded,row)

def relabelledChecked : PLift (okWith (fun run : LoadedDocument × PublishedVersion =>
    (match Dict.get run.2.document "tools" with | .list tools => tools.any isPlaceholder | _ => false) &&
      decide ((documentOperation run.1 "/health" .get).map proseOf = some none) &&
      decide ((lastRegistration silentDesk deskKey Database.empty none relabelled).map
        (fun r => (r.maxSourceBytes,r.sourceBytes,r.sourceFilename)) = some (silentRegistration.maxSourceBytes,
          silentRegistration.sourceBytes,silentRegistration.sourceFilename))) publishRelabelled = true) :=
  ⟨by decide +kernel⟩

theorem isPlaceholder_fields {tool : Value} (placed : isPlaceholder tool = true) : ∃ members provenance,
    tool = .dict members ∧ Dict.get members "description" = .str (placeholderOf .get "/health") ∧
      Dict.get members "provenance" = .dict provenance ∧ Dict.get provenance "source_path" = .str "/health" ∧
      Dict.get provenance "source_method" = .str "get" := by
  unfold isPlaceholder at placed
  split at placed
  next members =>
    rw [Bool.and_eq_true] at placed
    obtain ⟨description,placed⟩ := placed
    split at placed
    next provenance there =>
      rw [Bool.and_eq_true] at placed
      exact ⟨members,provenance,rfl,Value.pyEq_str.mp description,there,Value.pyEq_str.mp placed.1,Value.pyEq_str.mp placed.2⟩
    next => cases placed
  next => cases placed

/-- An update of the origin alone publishes a placeholder nobody wrote. -/
theorem placeholder_published : ¬ TruthfulPublications silentDesk deskKey relabelled := by
  intro truthful
  obtain ⟨⟨loaded,row⟩,ran,checked⟩ := exists_of_okWith relabelledChecked.down
  unfold publishRelabelled at ran
  obtain ⟨found,loads,ran⟩ := bind_eq_ok.mp ran
  obtain ⟨⟨next,published⟩,publishes,ran⟩ := bind_eq_ok.mp ran
  cases ran
  simp only [Bool.and_eq_true,decide_eq_true_eq] at checked
  obtain ⟨⟨placed,silent⟩,registered⟩ := checked
  obtain ⟨r,loaded',tools,last,loads',listed,all⟩ := truthful relabelledPublication deskTime next row rfl publishes
  rw [last,Option.map_some,Option.some.injEq,Prod.mk.injEq,Prod.mk.injEq] at registered
  rw [registered.1,registered.2.1,registered.2.2] at loads'
  cases loads.symm.trans loads'
  rw [listed] at placed
  obtain ⟨tool,member,isPlaced⟩ := List.any_eq_true.mp placed
  obtain ⟨members,provenance,rfl,description,there,sourcePath,sourceMethod⟩ := isPlaceholder_fields isPlaced
  obtain ⟨members',provenance',path,method,operation,same,there',path',method',operated,_,submitted⟩ := all _ member
  cases same
  rw [there] at there'
  cases there'
  cases (Value.str.inj (sourcePath.symm.trans path') : Str.lit "/health" = path)
  have get : method = .get := by
    have spelled : Str.lit "get" = method.lower := Value.str.inj (sourceMethod.symm.trans method')
    cases method with
    | get => rfl
    | _ => exact absurd spelled (by decide)
  subst get
  rw [operated] at silent
  -- nothing the reviewer sent has a description
  obtain ⟨u,decided,_,text⟩ := submitted (Option.some.inj silent) description
  rcases mem_decisions decided with old | ⟨call,inside,d,admitted,request,given⟩
  · cases old
  · rcases List.mem_cons.mp inside with rfl | inside
    · cases request
    · cases List.mem_singleton.mp inside
      cases request
      cases List.mem_singleton.mp given
      cases text

end Desk

end ToolLayer.ControlPlane
