import ToolLayer.OpenApi.Operations

/-! Which operation of the document an analyzed tool describes, and in whose words. -/
namespace ToolLayer.OpenApi
open Python Kit Kit.Result

/-- What the document itself says about an operation. -/
def proseOf (operation : Dict) : Option Str := (prose operation "description").or (prose operation "summary")

/-- What conversion writes where the document says nothing. -/
def placeholderOf (method : HttpMethod) (path : Str) : Str :=
  (Str.lit "Call " ++ method.upper ++ Str.lit " " ++ path ++ Str.lit " on the connected API.").take 1024

theorem descriptionOf_prose {operation : Dict} {text : Str} (said : proseOf operation = some text) (method : HttpMethod)
    (path : Str) : descriptionOf operation method path = text.take 1024 := by
  unfold proseOf at said
  rw [descriptionOf,said]

theorem descriptionOf_placeholder {operation : Dict} (silent : proseOf operation = none) (method : HttpMethod)
    (path : Str) : descriptionOf operation method path = placeholderOf method path := by
  unfold proseOf at silent
  rw [descriptionOf,silent,placeholderOf]

theorem hasProse_eq (operation : Dict) : hasProse operation = (proseOf operation).isSome := by
  unfold hasProse proseOf
  cases prose operation "description" <;> rfl

section Documents

variable [Unicode]

/-- The path item of a document, its references resolved. -/
def documentPathItem (loaded : LoadedDocument) (path : Str) : Option Dict :=
  match Assoc.get path loaded.paths with
  | some raw =>
    match resolve loaded.document raw (pathPointerOf path) with
    | .ok (.dict pathItem) => some pathItem
    | _ => none
  | none => none

/-- The operation a document has at a path and method. -/
def documentOperation (loaded : LoadedDocument) (path : Str) (method : HttpMethod) : Option Dict :=
  match (documentPathItem loaded path).map (fun pathItem => Dict.get pathItem method.lower) with
  | some (.dict operation) => some operation
  | _ => none

variable [Pydantic]

/-- An analyzed tool is the conversion of the operation at its place in the document. -/
def Documented (loaded : LoadedDocument) (o : AnalyzedOperation) : Prop :=
  ∀ tool, o.tool = some tool → ∃ pathItem operation, documentOperation loaded o.path o.method = some operation ∧
    convertOperation o.path o.method.lower pathItem operation = .ok tool

theorem analyzeOperation_converted {path : Str} {method : HttpMethod} {pathItem : Dict} {operation : Value} {pointer : Str}
    {seen later : SeenNames} {o : AnalyzedOperation} {tool : ToolDefinition}
    (done : analyzeOperation path method pathItem operation pointer seen = .ok (o,later)) (made : o.tool = some tool) :
    ∃ members, operation = .dict members ∧ convertOperation path method.lower pathItem members = .ok tool := by
  unfold analyzeOperation at done
  split at done
  next members =>
    split at done
    next found converted =>
      unfold acceptTool at done
      split at done
      next =>
        cases done
        cases made
      next =>
        cases done
        cases made
        exact ⟨members,rfl,converted⟩
    next =>
      split at done
      next =>
        cases done
        cases made
      next => cases done
  next =>
    cases done
    cases made

theorem analyzeMethods_documented {limits : SourceLimits} {loaded : LoadedDocument} {path pathPointer : Str} {pathItem : Dict}
    {methods : List HttpMethod} {state next : Analysis} (item : documentPathItem loaded path = some pathItem)
    (sofar : ∀ o ∈ state.operations, Documented loaded o)
    (done : analyzeMethods limits path pathPointer pathItem state methods = .ok next) :
    ∀ o ∈ next.operations, Documented loaded o := by
  induction methods generalizing state with
  | nil =>
    cases done
    exact sofar
  | cons method rest ih =>
    cases offered : offers pathItem method with
    | false =>
      rw [analyzeMethods_absent limits path pathPointer state rest offered] at done
      exact ih sofar done
    | true =>
      rw [analyzeMethods_present limits path pathPointer state rest offered] at done
      split at done
      next =>
        cases done
        exact sofar
      next =>
        split at done
        next => cases done
        next analyzed seen one =>
          refine ih (fun o member => ?_) done
          rcases List.mem_append.mp member with old | new
          · exact sofar o old
          · rw [List.mem_singleton.mp new]
            intro tool made
            obtain ⟨members,there,converted⟩ := analyzeOperation_converted one made
            obtain ⟨entry,_⟩ := analyzeOperation_eq_ok one
            rw [entry.atPath,entry.atMethod]
            refine ⟨pathItem,members,?_,converted⟩
            rw [documentOperation,item,Option.map_some,there]

theorem analyzePath_documented {limits : SourceLimits} {loaded : LoadedDocument} {entry : Str × Value}
    {state next : Analysis} (listed : Assoc.get entry.1 loaded.paths = some entry.2)
    (sofar : ∀ o ∈ state.operations, Documented loaded o)
    (done : analyzePath limits loaded.document state entry = .ok next) : ∀ o ∈ next.operations, Documented loaded o := by
  unfold analyzePath at done
  dsimp only at done
  split at done
  next =>
    cases done
    exact sofar
  next =>
    split at done
    next raw isDict =>
      split at done
      next =>
        split at done
        next =>
          cases done
          exact sofar
        next => cases done
      next pathItem resolved =>
        obtain ⟨analyzed,methods,done⟩ := bind_eq_ok.mp done
        cases done
        have item : documentPathItem loaded entry.1 = some pathItem := by
          rw [documentPathItem,listed,isDict]
          dsimp only
          rw [resolved]
        have kept := analyzeMethods_documented item sofar methods
        exact kept
      next => cases done
    next =>
      cases done
      exact sofar

/-- Every tool of an analysis converts the operation of the document at its place. -/
theorem analyzeDocument_documented {limits : SourceLimits} {loaded : LoadedDocument} {baseUrlOverride : Option Str}
    {result : AnalysisResult} (done : analyzeDocument limits loaded baseUrlOverride = .ok result) :
    ∀ o ∈ result.operations, Documented loaded o := by
  unfold analyzeDocument at done
  obtain ⟨⟨baseUrl,diagnostics⟩,_,done⟩ := bind_eq_ok.mp done
  obtain ⟨state,paths,done⟩ := bind_eq_ok.mp done
  cases done
  have reordered : (sortedPaths loaded.paths).Perm loaded.paths := List.perm_insertionSort _ _
  have distinct : (Assoc.keys loaded.paths).Nodup := (reordered.map Prod.fst).nodup_iff.mp nodup_sortedPaths
  refine loop_keeps (fun state : Analysis => ∀ o ∈ state.operations, Documented loaded o)
    (fun s entry t member sofar step => ?_) (by simp) paths
  exact analyzePath_documented (Assoc.get_of_mem distinct (reordered.mem_iff.mp member)) sofar step

end Documents

section Tools

variable [Pydantic]

theorem buildTool_words {path : Str} {method : HttpMethod} {operation : Dict} {table : ArgumentTable} {jsonBody : Bool}
    {operationId : Option Str} {toolName : Str} {tool : ToolDefinition}
    (built : buildTool path method operation table jsonBody operationId toolName = .ok tool) :
    tool.description = descriptionOf operation method path ∧ tool.provenance.sourcePath = path ∧
      tool.provenance.sourceMethod = method ∧
      tool.provenance.descriptionOrigin = if hasProse operation then .source else .generated := by
  unfold buildTool at built
  obtain ⟨bound,_,built⟩ := bind_eq_ok.mp built
  obtain ⟨tags,_,built⟩ := bind_eq_ok.mp built
  obtain ⟨deprecated,_,built⟩ := bind_eq_ok.mp built
  obtain ⟨provenance,made,built⟩ := bind_eq_ok.mp built
  obtain ⟨_,rfl⟩ := validated_eq_ok.mp made
  obtain ⟨_,rfl⟩ := validated_eq_ok.mp built
  exact ⟨rfl,rfl,rfl,rfl⟩

variable [Unicode]

omit [Pydantic] in
theorem find_supported (method : HttpMethod) :
    supportedMethods.find? (fun m => m.lower == Unicode.lower method.lower) = some method := by
  have ascii : method.lower.all CodePoint.isAscii = true := by cases method <;> decide
  rw [Unicode.lower_ascii _ ascii]
  cases method <;> decide

/-- A converted tool has the words of its operation, and says whether they are the document's. -/
theorem convertOperation_words {path : Str} {method : HttpMethod} {pathItem operation : Dict} {tool : ToolDefinition}
    (converted : convertOperation path method.lower pathItem operation = .ok tool) :
    tool.description = descriptionOf operation method path ∧ tool.provenance.sourcePath = path ∧
      tool.provenance.sourceMethod = method ∧
      tool.provenance.descriptionOrigin = if hasProse operation then .source else .generated := by
  unfold convertOperation at converted
  rw [find_supported] at converted
  obtain ⟨_,_,converted⟩ := bind_eq_ok.mp converted
  obtain ⟨_,_,converted⟩ := bind_eq_ok.mp converted
  obtain ⟨_,_,converted⟩ := bind_eq_ok.mp converted
  obtain ⟨_,_,converted⟩ := bind_eq_ok.mp converted
  exact buildTool_words converted

end Tools

end ToolLayer.OpenApi
