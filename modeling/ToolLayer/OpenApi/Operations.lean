import ToolLayer.OpenApi.Analyzer
import ToolLayer.OpenApi.Bindings

/-! What an analysis says of each operation: one entry under its own key, and tool names
that are claimed once. -/
namespace ToolLayer.OpenApi
open Python Kit Kit.Result

/-- A method under which the path item holds something. -/
def offers (pathItem : Dict) (method : HttpMethod) : Bool :=
  match Dict.get pathItem method.lower with
  | .null => false
  | _ => true

section Names

variable [Pydantic]

/-- The tool names of the operations so far. -/
def claimed (operations : List AnalyzedOperation) : List Str :=
  (operations.filterMap AnalyzedOperation.tool).map ToolDefinition.toolName

end Names

variable [Unicode] [Pydantic]

/-- An entry for the operation at a path and method: the tool it converts to, or the error that
says why there is none. -/
structure AnalyzedOperation.EntryOf (path : Str) (method : HttpMethod) (o : AnalyzedOperation) : Prop where
  atPath : o.path = path
  atMethod : o.method = method
  key : o.key = operationKey path method.lower
  converted : ∀ tool, o.tool = some tool → ∃ pathItem operation,
    convertOperation path method.lower pathItem operation = .ok tool
  explained : o.tool = none → ∃ d ∈ o.diagnostics, d.severity = .error ∧ d.operationKey = some o.key

/-- The names a table holds are those of the tools made so far, each once. -/
structure Analysis.Tracked (state : Analysis) : Prop where
  keys : Assoc.keys state.seen = claimed state.operations
  once : (claimed state.operations).Nodup

theorem refusedOperation_entry (path : Str) (method : HttpMethod) (pointer : Str) (source : Dict)
    (code message diagnosticPointer : Str) :
    (refusedOperation path method pointer source code message diagnosticPointer).EntryOf path method where
  atPath := rfl
  atMethod := rfl
  key := rfl
  converted _ none_ := nomatch none_
  explained _ := ⟨_,List.mem_singleton_self _,rfl,rfl⟩

theorem AnalyzedOperation.EntryOf.template {path : Str} {method : HttpMethod} {o : AnalyzedOperation}
    (entry : o.EntryOf path method) {tool : ToolDefinition} (made : o.tool = some tool) :
    tool.operation.pathTemplate = path := by
  obtain ⟨_,_,converted⟩ := entry.converted tool made
  obtain ⟨_,from_⟩ := convertOperation_madeFrom converted
  exact from_.template

/-- One operation gives one entry; a tool takes a name that was free. -/
theorem analyzeOperation_eq_ok {path : Str} {method : HttpMethod} {pathItem : Dict} {operation : Value} {pointer : Str}
    {seen later : SeenNames} {o : AnalyzedOperation}
    (done : analyzeOperation path method pathItem operation pointer seen = .ok (o,later)) : o.EntryOf path method ∧
      ((o.tool = none ∧ later = seen) ∨ ∃ tool, o.tool = some tool ∧ tool.toolName ∉ Assoc.keys seen ∧
        later = Assoc.set tool.toolName o.key seen) := by
  unfold analyzeOperation at done
  split at done
  next members =>
    split at done
    next tool converted =>
      unfold acceptTool at done
      split at done
      next previous taken =>
        cases done
        exact ⟨refusedOperation_entry _ _ _ _ _ _ _,Or.inl ⟨rfl,rfl⟩⟩
      next free =>
        cases done
        refine ⟨⟨rfl,rfl,rfl,?_,fun none_ => by cases none_⟩,Or.inr ⟨tool,rfl,Assoc.get_eq_none_iff.mp free,rfl⟩⟩
        rintro _ ⟨⟩
        exact ⟨_,_,converted⟩
    next e failed =>
      split at done
      next refused _ =>
        cases done
        exact ⟨refusedOperation_entry _ _ _ _ _ _ _,Or.inl ⟨rfl,rfl⟩⟩
      next => cases done
  next =>
    cases done
    exact ⟨refusedOperation_entry _ _ _ _ _ _ _,Or.inl ⟨rfl,rfl⟩⟩

omit [Unicode] in
theorem Analysis.Tracked.append {state : Analysis} {o : AnalyzedOperation} {later : SeenNames} {diagnostics : List Diagnostic}
    {count : Nat} (tracked : state.Tracked) (added : (o.tool = none ∧ later = state.seen) ∨ ∃ tool, o.tool = some tool ∧
      tool.toolName ∉ Assoc.keys state.seen ∧ later = Assoc.set tool.toolName o.key state.seen) :
    Analysis.Tracked ⟨state.operations ++ [o],diagnostics,later,count⟩ := by
  rcases added with ⟨none_,rfl⟩ | ⟨tool,some_,free,rfl⟩
  · have same : claimed (state.operations ++ [o]) = claimed state.operations := by simp [claimed,none_]
    exact ⟨by rw [same]; exact tracked.keys,by rw [same]; exact tracked.once⟩
  · have grown : claimed (state.operations ++ [o]) = claimed state.operations ++ [tool.toolName] := by simp [claimed,some_]
    refine ⟨?_,?_⟩
    · rw [grown,Assoc.keys_set,if_neg free,tracked.keys]
    · rw [grown]
      refine List.nodup_append'.mpr ⟨tracked.once,List.nodup_singleton _,?_⟩
      rw [List.disjoint_singleton,← tracked.keys]
      exact free

/-- The document diagnostic of a path where the operation limit was reached. -/
def limitReached (limits : SourceLimits) (pathPointer : Str) : Diagnostic :=
  ⟨"operation_limit_exceeded",Str.lit "only the first " ++ Decimal.natural limits.maxOperations ++
    Str.lit " operations are analyzed",pathPointer,.error,none⟩

/-- What a path adds: an entry for each offered method in turn, up to the limit. -/
structure Adds (limits : SourceLimits) (path pathPointer : Str) (pathItem : Dict) (methods : List HttpMethod)
    (state next : Analysis) (added : List AnalyzedOperation) : Prop where
  operations : next.operations = state.operations ++ added
  entries : ∀ o ∈ added, o.EntryOf path o.method
  inTurn : added.map AnalyzedOperation.method <+: methods.filter (offers pathItem)
  complete : added.map AnalyzedOperation.method = methods.filter (offers pathItem) ∨
    limitReached limits pathPointer ∈ next.diagnostics
  diagnostics : state.diagnostics <+: next.diagnostics
  tracked : state.Tracked → next.Tracked

theorem analyzeMethods_absent (limits : SourceLimits) (path pathPointer : Str) {pathItem : Dict} (state : Analysis)
    {method : HttpMethod} (rest : List HttpMethod) (absent : offers pathItem method = false) :
    analyzeMethods limits path pathPointer pathItem state (method::rest) =
      analyzeMethods limits path pathPointer pathItem state rest := by
  rw [analyzeMethods]
  unfold offers at absent
  cases found : Dict.get pathItem method.lower with
  | null => rfl
  | _ =>
    rw [found] at absent
    cases absent

theorem analyzeMethods_present (limits : SourceLimits) (path pathPointer : Str) {pathItem : Dict} (state : Analysis)
    {method : HttpMethod} (rest : List HttpMethod) (present : offers pathItem method = true) :
    analyzeMethods limits path pathPointer pathItem state (method::rest) =
      if limits.maxOperations ≤ state.count then
        .ok { state with diagnostics := state.diagnostics ++ [limitReached limits pathPointer] }
      else
        match analyzeOperation path method pathItem (Dict.get pathItem method.lower)
          (childPointer pathPointer method.lower) state.seen with
        | .error e => .error e
        | .ok (analyzed,seen) => analyzeMethods limits path pathPointer pathItem
            ⟨state.operations ++ [analyzed],state.diagnostics,seen,state.count + 1⟩ rest := by
  rw [analyzeMethods]
  unfold offers at present
  cases found : Dict.get pathItem method.lower with
  | null =>
    rw [found] at present
    cases present
  | _ => rfl

theorem analyzeMethods_eq_ok {limits : SourceLimits} {path pathPointer : Str} {pathItem : Dict} {methods : List HttpMethod}
    {state next : Analysis} (done : analyzeMethods limits path pathPointer pathItem state methods = .ok next) :
    ∃ added, Adds limits path pathPointer pathItem methods state next added := by
  induction methods generalizing state with
  | nil =>
    cases done
    exact ⟨[],by simp,by simp,List.prefix_refl _,Or.inl rfl,List.prefix_refl _,id⟩
  | cons method rest ih =>
    cases offered : offers pathItem method with
    | false =>
      rw [analyzeMethods_absent limits path pathPointer state rest offered] at done
      obtain ⟨added,adds⟩ := ih done
      have skipped : (method::rest).filter (offers pathItem) = rest.filter (offers pathItem) :=
        List.filter_cons_of_neg (by simp [offered])
      exact ⟨added,adds.operations,adds.entries,skipped ▸ adds.inTurn,skipped ▸ adds.complete,adds.diagnostics,adds.tracked⟩
    | true =>
      rw [analyzeMethods_present limits path pathPointer state rest offered] at done
      have listed : (method::rest).filter (offers pathItem) = method :: rest.filter (offers pathItem) :=
        List.filter_cons_of_pos offered
      split at done
      next =>
        cases done
        refine ⟨[],by simp,by simp,List.nil_prefix,Or.inr ?_,List.prefix_append _ _,fun tracked => ⟨tracked.keys,tracked.once⟩⟩
        exact List.mem_append_right _ (List.mem_singleton_self _)
      next =>
        split at done
        next => cases done
        next analyzed seen one =>
          obtain ⟨entry,claim⟩ := analyzeOperation_eq_ok one
          obtain ⟨added,adds⟩ := ih done
          refine ⟨analyzed::added,?_,?_,?_,?_,adds.diagnostics,fun tracked => adds.tracked (tracked.append claim)⟩
          · rw [adds.operations,List.append_assoc]
            rfl
          · rw [List.forall_mem_cons]
            exact ⟨entry.atMethod.symm ▸ entry,adds.entries⟩
          · rw [listed,List.map_cons,entry.atMethod]
            exact (List.prefix_cons_inj method).mpr adds.inTurn
          · rw [listed,List.map_cons,entry.atMethod]
            exact adds.complete.imp_left (congrArg _)

/-- What one path adds to the analysis. -/
structure PathAdds (limits : SourceLimits) (document : Dict) (entry : Str × Value) (state next : Analysis)
    (added : List AnalyzedOperation) : Prop where
  operations : next.operations = state.operations ++ added
  entries : ∀ o ∈ added, o.EntryOf entry.1 o.method
  methods : (added.map AnalyzedOperation.method).Nodup
  diagnostics : state.diagnostics <+: next.diagnostics
  tracked : state.Tracked → next.Tracked

omit [Pydantic] [Unicode] in
theorem nodup_supportedMethods : supportedMethods.Nodup := by decide

theorem analyzePath_eq_ok {limits : SourceLimits} {document : Dict} {entry : Str × Value} {state next : Analysis}
    (done : analyzePath limits document state entry = .ok next) :
    ∃ added, PathAdds limits document entry state next added := by
  have noted : ∀ d : Diagnostic, PathAdds limits document entry state
      { state with diagnostics := state.diagnostics ++ [d] } [] := fun d =>
    ⟨by simp,by simp,List.nodup_nil,List.prefix_append _ _,fun tracked => ⟨tracked.keys,tracked.once⟩⟩
  unfold analyzePath at done
  dsimp only at done
  split at done
  next =>
    cases done
    exact ⟨[],noted _⟩
  next =>
    split at done
    next raw =>
      split at done
      next e _ =>
        split at done
        next refused _ =>
          cases done
          exact ⟨[],noted _⟩
        next => cases done
      next pathItem _ =>
        obtain ⟨analyzed,methods,done⟩ := bind_eq_ok.mp done
        cases done
        obtain ⟨added,adds⟩ := analyzeMethods_eq_ok methods
        refine ⟨added,adds.operations,adds.entries,?_,adds.diagnostics.trans (List.prefix_append _ _),
          fun tracked => ⟨(adds.tracked tracked).keys,(adds.tracked tracked).once⟩⟩
        exact adds.inTurn.sublist.nodup (nodup_supportedMethods.filter _)
      next => cases done
    next =>
      cases done
      exact ⟨[],noted _⟩

/-- Every entry stands for a path of the document and a method, no two for the same. -/
structure Analysis.Sound (paths : List Str) (state : Analysis) : Prop where
  entries : ∀ o ∈ state.operations, o.EntryOf o.path o.method ∧ o.path ∈ paths
  once : (state.operations.map (fun o => (o.path,o.method))).Nodup
  tracked : state.Tracked

theorem Analysis.Sound.path {limits : SourceLimits} {document : Dict} {entry : Str × Value} {state next : Analysis}
    {paths : List Str} (sound : state.Sound paths) (fresh : entry.1 ∉ paths)
    (done : analyzePath limits document state entry = .ok next) : next.Sound (paths ++ [entry.1]) := by
  obtain ⟨added,adds⟩ := analyzePath_eq_ok done
  refine ⟨?_,?_,adds.tracked sound.tracked⟩
  · intro o member
    rw [adds.operations] at member
    rcases List.mem_append.mp member with old | new
    · exact ⟨(sound.entries o old).1,List.mem_append_left _ (sound.entries o old).2⟩
    · have made := adds.entries o new
      rw [made.atPath]
      exact ⟨made,List.mem_append_right _ (List.mem_singleton_self _)⟩
  · rw [adds.operations,List.map_append]
    refine List.nodup_append'.mpr ⟨sound.once,?_,?_⟩
    · have together : added.map (fun o => (o.path,o.method)) =
          (added.map AnalyzedOperation.method).map (fun method => (entry.1,method)) := by
        rw [List.map_map]
        exact List.map_congr_left (fun o member => by rw [(adds.entries o member).atPath]; rfl)
      rw [together]
      exact adds.methods.map (fun a b same => (Prod.mk.inj same).2)
    · intro pair old new
      obtain ⟨o,before,rfl⟩ := List.mem_map.mp old
      obtain ⟨p,after,same⟩ := List.mem_map.mp new
      have path : p.path = o.path := (Prod.mk.inj same).1
      rw [(adds.entries p after).atPath] at path
      exact fresh (path ▸ (sound.entries o before).2)

theorem Analysis.Sound.paths {limits : SourceLimits} {document : Dict} {entries : Dict} {state next : Analysis}
    {paths : List Str} (sound : state.Sound paths) (distinct : (paths ++ Assoc.keys entries).Nodup)
    (done : loop (analyzePath limits document) state entries = .ok next) : next.Sound (paths ++ Assoc.keys entries) := by
  induction entries generalizing state paths with
  | nil =>
    cases done
    simpa using sound
  | cons entry rest ih =>
    obtain ⟨middle,first,tail⟩ := loop_cons_eq_ok.mp done
    have fresh : entry.1 ∉ paths := by
      intro member
      exact (List.nodup_append.mp distinct).2.2 _ member entry.1 List.mem_cons_self rfl
    have shift : paths ++ Assoc.keys (entry::rest) = (paths ++ [entry.1]) ++ Assoc.keys rest := by simp [Assoc.keys]
    rw [shift] at distinct ⊢
    exact ih (sound.path fresh first) distinct tail

omit [Pydantic] [Unicode] in
theorem nodup_sortedPaths {loaded : LoadedDocument} : (Assoc.keys (sortedPaths loaded.paths)).Nodup := by
  have whole := Value.distinct_get "paths" loaded.distinct
  rw [loaded.hasPaths] at whole
  have reordered : (Assoc.keys (sortedPaths loaded.paths)).Perm (Assoc.keys loaded.paths) :=
    (List.perm_insertionSort _ _).map Prod.fst
  exact reordered.nodup_iff.mpr (Value.distinct_dict.mp whole).1

/-- The operations of an analysis: one entry for a path and a method, and no tool name twice. -/
structure AnalysisResult.Sound (loaded : LoadedDocument) (result : AnalysisResult) : Prop where
  entries : ∀ o ∈ result.operations, o.EntryOf o.path o.method ∧ o.path ∈ Assoc.keys loaded.paths
  once : (result.operations.map (fun o => (o.path,o.method))).Nodup
  toolNames : (result.tools.map ToolDefinition.toolName).Nodup

theorem analyzeDocument_sound {limits : SourceLimits} {loaded : LoadedDocument} {baseUrlOverride : Option Str}
    {result : AnalysisResult} (done : analyzeDocument limits loaded baseUrlOverride = .ok result) : result.Sound loaded := by
  unfold analyzeDocument at done
  obtain ⟨⟨baseUrl,diagnostics⟩,_,done⟩ := bind_eq_ok.mp done
  obtain ⟨state,paths,done⟩ := bind_eq_ok.mp done
  cases done
  have start : Analysis.Sound [] ⟨[],diagnostics,[],0⟩ := ⟨by simp,List.nodup_nil,⟨rfl,List.nodup_nil⟩⟩
  obtain ⟨entries,once,tracked⟩ := start.paths (by simpa using nodup_sortedPaths) paths
  refine ⟨fun o member => ⟨(entries o member).1,?_⟩,once,tracked.once⟩
  have reordered : (Assoc.keys (sortedPaths loaded.paths)).Perm (Assoc.keys loaded.paths) :=
    (List.perm_insertionSort _ _).map Prod.fst
  exact reordered.mem_iff.mp (by simpa using (entries o member).2)

omit [Pydantic] [Unicode] in
theorem operationKey_injective {path path' : Str} {method method' : HttpMethod}
    (same : operationKey path method.lower = operationKey path' method'.lower) : path = path' ∧ method = method' := by
  cases method <;> cases method' <;> simp_all [operationKey,HttpMethod.lower,Str.lit]

end ToolLayer.OpenApi
