import ToolLayer.ControlPlane.Decisions
import ToolLayer.ControlPlane.Lifecycle
import ToolLayer.OpenApi.Operations

/-! What a draft holds from its registration to its publication: the analyzed tools, and
the latest decisions on each of them. -/
namespace ToolLayer.ControlPlane
open Python Kit Kit.Result OpenApi

section Registration

variable [Pydantic]

/-- An operation that became a tool, and its input schema as the dump has it. -/
structure Proposal where
  key : Str
  tool : ToolDefinition
  schema : Dict

namespace Proposal

/-- What the converter itself proposes for the tool. -/
def review (p : Proposal) : OperationReview :=
  ⟨p.key,.str "included",p.tool.description,.str p.tool.provenance.descriptionOrigin.text,
    .str p.tool.policy.effectClass.text,p.tool.policy.requiresConfirmation,
    .str p.tool.policy.access.accessMode.text,p.tool.policy.access.allowedRoles.map .str⟩

def written (p : Proposal) : Str × Value := (p.key,p.tool.dumpWith p.schema)

/-- The written entry as its column gives it back. -/
def stored (p : Proposal) : Str × Value := (p.key,Value.reload (p.tool.dumpWith p.schema))

theorem plain_review {p : Proposal} (key : p.key.scalar = true) : p.review.Plain := by
  obtain ⟨_,_,described,_⟩ := p.tool.accepted
  obtain ⟨named,_,_,ordered⟩ := p.tool.policy.access.accepted
  refine ⟨key,scalar_of_boundedText described,_,_,_,_,_,rfl,rfl,rfl,rfl,rfl,by decide,?_,?_,?_,fun role member => ?_,ordered⟩
  · cases p.tool.provenance.descriptionOrigin <;> decide
  · cases p.tool.policy.effectClass <;> decide
  · cases p.tool.policy.access.accessMode <;> decide
  · have bounded := named role member
    simp only [resourceKey,Bool.and_eq_true] at bounded
    exact scalar_of_boundedText bounded.1

end Proposal

/-- The serialized form of an operation. -/
def operationDict (o : AnalyzedOperation) (tool : Value) : Dict :=
  [("key",.str o.key),("path",.str o.path),("method",.str o.method.lower),("pointer",.str o.pointer),
    ("source_operation",.dict o.sourceOperation),("tool",tool),
    ("diagnostics",.list (o.diagnostics.map diagnosticDict))]

theorem serializeOperation_eq_ok {o : AnalyzedOperation} {v : Value} (done : serializeOperation o = .ok v) :
    ∃ tool, dumpTool o.tool = .ok tool ∧ v = .dict (operationDict o tool) := by
  obtain ⟨tool,dumped,done⟩ := bind_eq_ok.mp done
  cases done
  exact ⟨tool,dumped,rfl⟩

theorem reload_operationDict (o : AnalyzedOperation) (tool : Value) : Value.reload (.dict (operationDict o tool)) =
    .dict ((operationDict o tool).map (fun m => (m.1,Value.reload m.2))) :=
  Value.reload_dict (by simp only [operationDict,Assoc.keys_cons,Assoc.keys_nil]; decide)
    (by simp only [operationDict,Assoc.keys_cons,Assoc.keys_nil]; decide)

/-- Where the operations of an analysis are, before the column and after it. -/
theorem serializeAnalysis_eq_ok {result : AnalysisResult} {serialized : Dict}
    (done : serializeAnalysis result = .ok serialized) : ∃ values, each serializeOperation result.operations = .ok values ∧
      Assoc.get (Str.lit "operations") serialized = some (.list values) ∧
      Assoc.get (Str.lit "operations") (Value.reloadMembers [] serialized) = some (.list (values.map Value.reload)) := by
  obtain ⟨values,serializes,written⟩ := bind_eq_ok.mp done
  have keys : Assoc.keys serialized = ["analyzer_version","spec_version","api_title","api_summary","base_url","diagnostics",
      "operations"] := by
    cases written
    rfl
  have column := Value.reload_dict (by rw [keys]; decide) (by rw [keys]; decide)
  rw [Value.reload] at column
  refine ⟨values,serializes,?_,?_⟩
  · cases written
    rfl
  · rw [Value.dict.inj column]
    cases written
    rw [← Value.reloadList_eq_map]
    rfl

variable [Unicode]

/-- The entry of one stored operation. -/
def analyzedEntry (operation : Value) : Except PyExc (Option (Str × Value)) := do
  let members ← asMapping operation
  match Dict.get members "tool" with
  | .null => return none
  | tool => do
    let key ← item members "key"
    let key ← strOf key
    return some (key,tool)

omit [Pydantic] in
theorem analyzedOperations_of_list {analysis : Dict} {values : List Value} {found : List (Option (Str × Value))}
    (listed : Assoc.get (Str.lit "operations") analysis = some (.list values)) (each_ : each analyzedEntry values = .ok found) :
    analyzedOperations analysis = .ok (found.filterMap id) := by
  have operations : getOr analysis "operations" (.list []) = .list values := by rw [getOr,listed]; rfl
  unfold analyzedOperations
  rw [operations]
  change (each analyzedEntry values >>= fun entries => pure (entries.filterMap id)) = _
  rw [each_]
  rfl

/-- An operation reads as its entry, before the column and after it. -/
theorem analyzedEntry_written (o : AnalyzedOperation) (members : Dict) :
    analyzedEntry (.dict (operationDict o (.dict members))) = .ok (some (o.key,.dict members)) := rfl

theorem analyzedEntry_stored {o : AnalyzedOperation} (plain : o.key.scalar = true) (members : Dict) :
    analyzedEntry (Value.reload (.dict (operationDict o (.dict members)))) =
      .ok (some (o.key,Value.reload (.dict members))) := by
  have read : analyzedEntry (Value.reload (.dict (operationDict o (.dict members)))) =
      .ok (some (o.key.paired,Value.reload (.dict members))) := by
    rw [reload_operationDict]
    rfl
  rw [read,Str.paired_scalar plain]

/-- A tool some operation converts to, and the schema its dump has. -/
def Proposal.Converted (p : Proposal) : Prop :=
  Value.jsonModeMembers p.tool.inputSchema = .ok p.schema ∧
  ∃ path method pathItem operation, convertOperation path method pathItem operation = .ok p.tool

/-- The tools of the operations, before and after the column. -/
structure Proposed (operations : List AnalyzedOperation) (values : List Value) (proposals : List Proposal) : Prop where
  keys : proposals.map Proposal.key = (operations.filter (fun o => o.tool.isSome)).map AnalyzedOperation.key
  exists_written : ∃ found, each analyzedEntry values = .ok found ∧ found.filterMap id = proposals.map Proposal.written
  exists_stored : ∃ found, each analyzedEntry (values.map Value.reload) = .ok found ∧
    found.filterMap id = proposals.map Proposal.stored
  converted : ∀ p ∈ proposals, p.Converted

theorem exists_proposed {operations : List AnalyzedOperation} {values : List Value}
    (keys : ∀ o ∈ operations, o.tool.isSome = true → o.key.scalar = true)
    (converts : ∀ o ∈ operations, ∀ tool, o.tool = some tool →
      ∃ path method pathItem operation, convertOperation path method pathItem operation = .ok tool)
    (serialized : List.Forall₂ (fun o v => serializeOperation o = .ok v) operations values) :
    ∃ proposals, Proposed operations values proposals ∧ ∀ p ∈ proposals, ∃ o ∈ operations, o.key = p.key ∧
      o.tool = some p.tool := by
  induction serialized with
  | nil => exact ⟨[],⟨rfl,⟨[],rfl,rfl⟩,⟨[],rfl,rfl⟩,by simp⟩,by simp⟩
  | @cons o v operations values one _ ih =>
    rw [List.forall_mem_cons] at keys converts
    obtain ⟨proposals,⟨names,⟨found,written,tools⟩,⟨again,stored,reloaded⟩,origins⟩,from_⟩ := ih keys.2 converts.2
    have earlier : ∀ p ∈ proposals, ∃ a ∈ o::operations, a.key = p.key ∧ a.tool = some p.tool := by
      intro p member
      obtain ⟨a,inside,same⟩ := from_ p member
      exact ⟨a,List.mem_cons_of_mem _ inside,same⟩
    obtain ⟨dumped,dump,rfl⟩ := serializeOperation_eq_ok one
    cases made : o.tool with
    | none =>
      rw [made] at dump
      cases dump
      refine ⟨proposals,⟨?_,⟨none::found,?_,tools⟩,⟨none::again,?_,reloaded⟩,origins⟩,earlier⟩
      · rw [names,List.filter_cons_of_neg (by simp [made])]
      · exact each_cons_eq_ok.mpr ⟨_,_,rfl,written,rfl⟩
      · refine each_cons_eq_ok.mpr ⟨_,_,?_,stored,rfl⟩
        rw [reload_operationDict]
        rfl
    | some tool =>
      rw [made] at dump
      obtain ⟨schema,dumped,rfl⟩ := ToolDefinition.dump_eq_ok.mp dump
      have plain : o.key.scalar = true := keys.1 (by rw [made]; rfl)
      refine ⟨⟨o.key,tool,schema⟩::proposals,⟨?_,⟨_,each_cons_eq_ok.mpr ⟨_,_,analyzedEntry_written o _,written,rfl⟩,?_⟩,
        ⟨_,each_cons_eq_ok.mpr ⟨_,_,analyzedEntry_stored plain _,stored,rfl⟩,?_⟩,
        List.forall_mem_cons.mpr ⟨⟨dumped,converts.1 tool made⟩,origins⟩⟩,
        List.forall_mem_cons.mpr ⟨⟨o,List.mem_cons_self,rfl,made⟩,earlier⟩⟩
      · rw [List.map_cons,names,List.filter_cons_of_pos (by simp [made])]
        rfl
      · exact congrArg (List.cons _) tools
      · exact congrArg (List.cons _) reloaded

omit [Pydantic] [Unicode] in
theorem scalar_operationKey {path : Str} (method : HttpMethod) (plain : path.scalar = true) :
    (operationKey path method.lower).scalar = true := by
  rw [operationKey,Str.scalar_append,Str.scalar_append,plain]
  cases method <;> rfl

theorem initialEntry_written (p : Proposal) : initialEntry p.written = .ok p.review := rfl

/-- A draft that holds these tools under distinct keys, each reviewed as the updates decided. -/
structure Holds (d : ConnectorDraft) (updates : List ReviewUpdate) (proposals : List Proposal) : Prop where
  analyzed : analyzedOperations d.analysis = .ok (proposals.map Proposal.stored)
  reviewed : ReviewState.fromDict d.review = .ok ⟨proposals.map (fun p => p.review.decided updates)⟩
  distinct : (proposals.map Proposal.key).Nodup
  plain : ∀ p ∈ proposals, (p.review.decided updates).Plain
  converted : ∀ p ∈ proposals, p.Converted

/-- The document a registration brings, and its analysis. -/
structure Registration.Analyzed (parsers : Parsers) (r : Registration) (loaded : LoadedDocument)
    (analysis : AnalysisResult) : Prop where
  load : loadDocument parsers { maxBytes := r.maxSourceBytes } r.sourceBytes r.sourceFilename = .ok loaded
  analyze : analyzeDocument { maxBytes := r.maxSourceBytes } loaded r.baseUrlOverride = .ok analysis

/-- A registration stores what it analyzed and nothing decided yet. -/
theorem exists_holds_analyzed {parsers : Parsers} {db next : Database} {r : Registration} {now : Timestamp} {d : ConnectorDraft}
    (done : registerConnector parsers db r now = .ok (next,d)) : ∃ loaded analysis proposals,
      r.Analyzed parsers loaded analysis ∧ Holds d [] proposals ∧
      ∀ p ∈ proposals, ∃ o ∈ analysis.operations, o.key = p.key ∧ o.tool = some p.tool := by
  obtain ⟨loaded,analysis,serialized,review,load,analyze,serialize,initial,_,storedAnalysis,storedReview,_⟩ :=
    (registerConnector_eq_ok done).exists_analysis
  have sound := analyzeDocument_sound analyze
  have plainKey : ∀ o ∈ analysis.operations, o.tool.isSome = true → o.key.scalar = true := by
    intro o member made
    obtain ⟨tool,found⟩ := Option.isSome_iff_exists.mp made
    have entry := (sound.entries o member).1
    obtain ⟨template,_⟩ := tool.operation.accepted
    rw [entry.template found,Bool.and_eq_true] at template
    rw [entry.key]
    exact scalar_operationKey _ (scalar_of_boundedText template.1)
  have nodup : (analysis.operations.map AnalyzedOperation.key).Nodup := by
    have keyed : analysis.operations.map AnalyzedOperation.key =
        (analysis.operations.map (fun o => (o.path,o.method))).map (fun at_ => operationKey at_.1 at_.2.lower) := by
      rw [List.map_map]
      exact List.map_congr_left (fun o member => (sound.entries o member).1.key)
    rw [keyed]
    exact sound.once.map (fun _ _ same => Prod.ext_iff.mpr (operationKey_injective same))
  obtain ⟨values,serializes,listed,column⟩ := serializeAnalysis_eq_ok serialize
  have converts : ∀ o ∈ analysis.operations, ∀ tool, o.tool = some tool →
      ∃ path method pathItem operation, convertOperation path method pathItem operation = .ok tool := by
    intro o member tool made
    obtain ⟨pathItem,operation,converted⟩ := (sound.entries o member).1.converted tool made
    exact ⟨_,_,pathItem,operation,converted⟩
  obtain ⟨proposals,⟨keys,⟨found,read,tools⟩,⟨again,reread,reloaded⟩,origins⟩,from_⟩ :=
    exists_proposed plainKey converts (each_eq_ok.mp serializes)
  have distinct : (proposals.map Proposal.key).Nodup := by
    rw [keys]
    exact nodup.sublist (List.filter_sublist.map _)
  have plain : ∀ p ∈ proposals, p.review.Plain := by
    intro p member
    have named : p.key ∈ (analysis.operations.filter (fun o => o.tool.isSome)).map AnalyzedOperation.key :=
      keys ▸ List.mem_map_of_mem member
    obtain ⟨o,inside,same⟩ := List.mem_map.mp named
    obtain ⟨there,made⟩ := List.mem_filter.mp inside
    exact Proposal.plain_review (same ▸ plainKey o there made)
  refine ⟨loaded,analysis,proposals,⟨load,analyze⟩,⟨?_,?_,distinct,plain,origins⟩,from_⟩
  · rw [storedAnalysis,analyzedOperations_of_list column reread,reloaded]
  · have each_ : each initialEntry (proposals.map Proposal.written) = .ok (proposals.map Proposal.review) := by
      rw [each_eq_ok,List.forall₂_map_left_iff,List.forall₂_map_right_iff,List.forall₂_same]
      exact fun p _ => initialEntry_written p
    rw [buildInitialReview,analyzedOperations_of_list listed read,tools,ok_bind,each_] at initial
    cases initial
    rw [storedReview]
    exact ReviewState.fromDict_reload (List.forall_mem_map.mpr plain)

theorem exists_holds_registered {parsers : Parsers} {db next : Database} {r : Registration} {now : Timestamp} {d : ConnectorDraft}
    (done : registerConnector parsers db r now = .ok (next,d)) : ∃ proposals, Holds d [] proposals := by
  obtain ⟨_,_,proposals,_,holds,_⟩ := exists_holds_analyzed done
  exact ⟨proposals,holds⟩

omit [Unicode] in
theorem applyUpdates_eq_ok {proposals : List Proposal} {updates more : List ReviewUpdate} {out : ReviewState}
    (distinct : (proposals.map Proposal.key).Nodup) (plain : ∀ p ∈ proposals, (p.review.decided updates).Plain)
    (admitted : ∀ u ∈ more, u.Accepts)
    (done : loop applyUpdate ⟨proposals.map (fun p => p.review.decided updates)⟩ more = .ok out) :
    out = ⟨proposals.map (fun p => p.review.decided (updates ++ more))⟩ ∧
      ∀ p ∈ proposals, (p.review.decided (updates ++ more)).Plain := by
  induction more generalizing updates with
  | nil =>
    cases done
    rw [List.append_nil]
    exact ⟨rfl,plain⟩
  | cons u rest ih =>
    rw [List.forall_mem_cons] at admitted
    obtain ⟨⟨operations⟩,first,tail⟩ := loop_cons_eq_ok.mp done
    have keys : (proposals.map (fun p => p.review.decided updates)).map OperationReview.operationKey =
        proposals.map Proposal.key := by
      rw [List.map_map]
      rfl
    have mapped := applyUpdate_eq_ok (keys ▸ distinct) (List.forall_mem_map.mpr plain) first
    rw [List.map_map] at mapped
    have stepped : operations = proposals.map (fun p => p.review.decided (updates ++ [u])) :=
      mapped.trans (List.map_congr_left (fun p _ => (OperationReview.decided_concat p.review updates u).symm))
    have kept : ∀ p ∈ proposals, (p.review.decided (updates ++ [u])).Plain := by
      intro p member
      rw [OperationReview.decided_concat]
      split
      next => exact (plain p member).after admitted.1
      next => exact plain p member
    rw [stepped] at tail
    rw [List.append_cons]
    exact ih kept admitted.2 tail

/-- An accepted update adds its decisions. -/
theorem Holds.update {db next : Database} {u : DraftUpdate} {found d : ConnectorDraft} {updates : List ReviewUpdate}
    {proposals : List Proposal} (holds : Holds found updates proposals) (stored : storedDraft db u.connectorKey = some found)
    (admitted : u.Accepts) (done : updateReview db u = .ok (next,d)) : Holds d (updates ++ u.updates) proposals := by
  obtain ⟨c,draft,revised,connector,there,_,revise,_,analysis,_,written,_⟩ := (updateReview_eq_ok done).exists_draft
  rw [storedDraft,connector,Option.bind_some,there] at stored
  cases stored
  unfold revisedDraft at revise
  obtain ⟨_,revise⟩ := refuse_bind_eq_ok.mp revise
  obtain ⟨state,read,revise⟩ := bind_eq_ok.mp revise
  obtain ⟨state',applied,revise⟩ := bind_eq_ok.mp revise
  obtain ⟨_,_,revise⟩ := bind_eq_ok.mp revise
  cases revise
  rw [holds.reviewed] at read
  cases read
  obtain ⟨rfl,plain⟩ := applyUpdates_eq_ok holds.distinct holds.plain admitted.2.2.1 applied
  refine ⟨?_,?_,holds.distinct,plain,holds.converted⟩
  · rw [written]
    exact holds.analyzed
  · rw [written]
    exact ReviewState.fromDict_reload (List.forall_mem_map.mpr plain)

end Registration

section Publication

/-- Two dictionaries with the same fields, equal but for some of them. -/
def AgreeExcept (fields : List Str) (before after : Dict) : Prop :=
  Assoc.keys after = Assoc.keys before ∧ ∀ field, field ∉ fields → Dict.get after field = Dict.get before field

/-- A published tool: the analyzed one, but for what the review decides. -/
structure ReviewedAs (analyzed : Dict) (r : OperationReview) (tool : Dict) : Prop where
  kept : AgreeExcept ["description","policy","provenance"] analyzed tool
  description : Dict.get tool "description" = .str r.description
  policy : Dict.get tool "policy" = .dict [("effect_class",r.effectClass),
    ("requires_confirmation",.bool r.requiresConfirmation),
    ("access",.dict [("access_mode",r.accessMode),("allowed_roles",.list r.allowedRoles)])]
  exists_provenance : ∃ before after, Dict.get analyzed "provenance" = .dict before ∧
    Dict.get tool "provenance" = .dict after ∧ AgreeExcept ["description_origin"] before after ∧
    Dict.get after "description_origin" = r.descriptionOrigin

theorem AgreeExcept.refl (fields : List Str) (d : Dict) : AgreeExcept fields d d := ⟨rfl,fun _ _ => rfl⟩

theorem AgreeExcept.set {fields : List Str} {before after : Dict} {key : Str} (value : Value)
    (agree : AgreeExcept fields before after) (known : key ∈ Assoc.keys before) (excepted : key ∈ fields) :
    AgreeExcept fields before (Dict.set after key value) := by
  refine ⟨?_,fun field free => ?_⟩
  · rw [Dict.set,Assoc.keys_set,if_pos (agree.1.symm ▸ known)]
    exact agree.1
  · have apart : field ≠ key := by
      rintro rfl
      exact free excepted
    rw [Dict.get_set,if_neg apart]
    exact agree.2 field free

theorem accessPolicy_dump {r : OperationReview} {policy : ToolAccessPolicy} (plain : r.Plain)
    (built : r.accessPolicy = .ok policy) :
    policy.dump = .dict [("access_mode",r.accessMode),("allowed_roles",.list r.allowedRoles)] := by
  obtain ⟨_,_,_,mode,roles,_,_,_,isMode,isRoles,_,_,_,_,_,ordered⟩ := plain.exists_texts
  have kept : sortedTexts roles = roles := List.Pairwise.insertionSort_eq ordered
  have texts : (roles.map Value.str).mapM Value.text? = some roles := Read.tuple_texts roles
  unfold OperationReview.accessPolicy at built
  obtain ⟨sorted,sorts,built⟩ := bind_eq_ok.mp built
  rw [isRoles,sortedRoles,texts] at sorts
  change Except.ok ((sortedTexts roles).map Value.str) = _ at sorts
  rw [kept] at sorts
  cases sorts
  rw [isMode] at built
  obtain ⟨spelled,listed⟩ := accessPolicyOf_eq_ok built
  rw [ToolAccessPolicy.dump,spelled,listed,isMode,isRoles,kept]

/-- What publication makes of a stored tool and its review. -/
theorem reviewedTool_eq_ok {analyzed : List (Str × Value)} {r : OperationReview} {before : Dict} {tool : Value}
    (plain : r.Plain) (found : Assoc.get r.operationKey analyzed = some (.dict before))
    (fields : Str.lit "description" ∈ Assoc.keys before ∧ Str.lit "policy" ∈ Assoc.keys before ∧
      Str.lit "provenance" ∈ Assoc.keys before)
    (source : ∃ provenance, Dict.get before "provenance" = .dict provenance ∧
      Str.lit "description_origin" ∈ Assoc.keys provenance)
    (built : reviewedTool analyzed r = .ok tool) : ∃ after, tool = .dict after ∧ ReviewedAs before r after := by
  unfold reviewedTool at built
  rw [found] at built
  obtain ⟨members,mapping,built⟩ := bind_eq_ok.mp built
  cases mapping
  obtain ⟨access,policy,built⟩ := bind_eq_ok.mp built
  obtain ⟨value,read,built⟩ := bind_eq_ok.mp built
  obtain ⟨provenance,object,built⟩ := bind_eq_ok.mp built
  cases built
  obtain ⟨origins,there,known⟩ := source
  have stored : Dict.get before "provenance" = value := by
    rw [Dict.get,item_eq_ok.mp read]
    rfl
  rw [stored,asDict_eq_ok.mp object] at there
  cases there
  have reviewed : reviewedPolicy r access = .dict [("effect_class",r.effectClass),
      ("requires_confirmation",.bool r.requiresConfirmation),
      ("access",.dict [("access_mode",r.accessMode),("allowed_roles",.list r.allowedRoles)])] := by
    rw [reviewedPolicy,accessPolicy_dump plain policy]
  refine ⟨_,rfl,?_,?_,?_,provenance,Dict.set provenance "description_origin" r.descriptionOrigin,
    stored.trans (asDict_eq_ok.mp object),?_,?_,?_⟩
  · exact (((AgreeExcept.refl _ _).set _ fields.1 (by simp)).set _ fields.2.1 (by simp)).set _ fields.2.2 (by simp)
  · rw [Dict.get_set,if_neg (by decide),Dict.get_set,if_neg (by decide),Dict.get_set,if_pos rfl]
  · rw [Dict.get_set,if_neg (by decide),Dict.get_set,if_pos rfl,reviewed]
  · rw [Dict.get_set,if_pos rfl]
  · exact (AgreeExcept.refl _ _).set _ known (by simp)
  · rw [Dict.get_set,if_pos rfl]

variable [Pydantic]

def storedProvenance (p : ToolProvenance) : Dict :=
  [("source_operation_id",Value.reload (textOrNull p.sourceOperationId)),("source_path",Value.reload (.str p.sourcePath)),
    ("source_method",.str p.sourceMethod.lower),("tags",Value.reload (.list (p.tags.map .str))),
    ("deprecated",.bool p.deprecated),("description_origin",.str p.descriptionOrigin.text)]

/-- The members of a tool as its column gives them back. -/
def storedTool (t : ToolDefinition) (schema : Dict) : Dict :=
  [("tool_name",.str t.toolName),("display_name",.str t.displayName),("description",.str t.description),
    ("input_schema",Value.reload (.dict schema)),("operation",Value.reload t.operation.dump),("policy",t.policy.dump),
    ("provenance",.dict (storedProvenance t.provenance))]

omit [Pydantic] in
theorem reload_policy (p : ToolPolicy) : Value.reload p.dump = p.dump := by
  have listed := distinct_texts p.access.allowedRoles
  have named : Value.scalar (.list (p.access.allowedRoles.map .str)) = true := by
    refine OperationReview.every_texts (fun role member => ?_)
    have bounded := p.access.accepted.1 role member
    simp only [resourceKey,Bool.and_eq_true] at bounded
    exact scalar_of_boundedText bounded.1
  have mode : p.access.accessMode.text.scalar = true := by cases p.access.accessMode <;> decide
  have effect : p.effectClass.text.scalar = true := by cases p.effectClass <;> decide
  refine Value.reload_of_scalar ?_ ?_
  · simp only [ToolPolicy.dump,ToolAccessPolicy.dump,Value.distinct_dict,Assoc.keys_cons,Assoc.keys_nil,
      List.forall_mem_cons,Value.distinct_bool,Value.distinct_str,listed,true_and]
    refine ⟨by decide,⟨by decide,?_⟩,?_⟩
    all_goals simp
  · simp only [ToolPolicy.dump,ToolAccessPolicy.dump,Value.scalar,Value.every_dict,List.forall_mem_cons]
    refine ⟨⟨by decide,effect⟩,⟨by decide,rfl⟩,⟨by decide,⟨by decide,mode⟩,⟨by decide,named⟩,?_⟩,?_⟩
    all_goals simp

theorem reload_provenance (p : ToolProvenance) : Value.reload p.dump = .dict (storedProvenance p) := by
  have method : Value.reload (.str p.sourceMethod.lower) = .str p.sourceMethod.lower := by
    cases p.sourceMethod <;> rfl
  have origin : Value.reload (.str p.descriptionOrigin.text) = .str p.descriptionOrigin.text := by
    cases p.descriptionOrigin <;> rfl
  unfold ToolProvenance.dump
  rw [Value.reload_dict (by simp only [Assoc.keys_cons,Assoc.keys_nil]; decide)
    (by simp only [Assoc.keys_cons,Assoc.keys_nil]; decide)]
  simp only [List.map_cons,List.map_nil,storedProvenance,method,origin]
  rfl

theorem reload_dumpWith (t : ToolDefinition) (schema : Dict) :
    Value.reload (t.dumpWith schema) = .dict (storedTool t schema) := by
  obtain ⟨named,displayed,described,_⟩ := t.accepted
  have text : ∀ s : Str, s.scalar = true → Value.reload (.str s) = .str s := by
    intro s plain
    rw [Value.reload,Str.paired_scalar plain]
  have name := text _ (scalar_of_boundedText (Bool.and_eq_true_iff.mp named).1)
  have display := text _ (scalar_of_boundedText displayed)
  have description := text _ (scalar_of_boundedText described)
  unfold ToolDefinition.dumpWith
  rw [Value.reload_dict (by simp only [Assoc.keys_cons,Assoc.keys_nil]; decide)
    (by simp only [Assoc.keys_cons,Assoc.keys_nil]; decide)]
  simp only [List.map_cons,List.map_nil,storedTool,name,display,description,reload_policy,reload_provenance]

theorem Proposal.stored_eq (p : Proposal) : p.stored = (p.key,.dict (storedTool p.tool p.schema)) := by
  rw [Proposal.stored,reload_dumpWith]

omit [Pydantic] in
/-- `{key: tool for …}` has every entry where no key comes twice. -/
theorem toolsByKey_of_nodup {entries : List (Str × Value)} (distinct : (Assoc.keys entries).Nodup) :
    toolsByKey entries = entries := by
  have step : ∀ (entries found : List (Str × Value)), (Assoc.keys found ++ Assoc.keys entries).Nodup →
      entries.foldl (fun found entry => Assoc.set entry.1 entry.2 found) found = found ++ entries := by
    intro entries
    induction entries with
    | nil => exact fun found _ => (List.append_nil found).symm
    | cons entry rest ih =>
      intro found apart
      have absent : entry.1 ∉ Assoc.keys found := by
        intro present
        exact (List.nodup_append.mp apart).2.2 _ present _ List.mem_cons_self rfl
      rw [List.foldl_cons,Assoc.set_of_absent absent,ih]
      · rw [List.append_assoc]
        rfl
      · simpa [Assoc.keys] using apart
  exact step entries [] distinct

variable [Unicode]

theorem initialEntry_stored (p : Proposal) : initialEntry p.stored = .ok p.review := by
  rw [Proposal.stored_eq]
  rfl

end Publication

end ToolLayer.ControlPlane
