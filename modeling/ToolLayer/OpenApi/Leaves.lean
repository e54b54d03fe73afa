import ToolLayer.OpenApi.Operations
import ToolLayer.OpenApi.Resolution

/-! What an analysis copies out of a description: a condition on leaves that holds throughout
the document, and of every text and flag, holds throughout what is copied. -/
namespace ToolLayer.OpenApi
open Python Kit Kit.Result

/-- Every value at any depth that is no container passes. -/
def Clean (leaf : Value → Bool) (v : Value) : Prop := v.every leaf (fun _ => true) = true

/-- A condition that texts and constants meet. -/
structure Lenient (leaf : Value → Bool) : Prop where
  null : leaf .null = true
  bool : ∀ b, leaf (.bool b) = true
  str : ∀ s, leaf (.str s) = true

section Clean

variable {leaf : Value → Bool}

theorem clean_list {items : List Value} : Clean leaf (.list items) ↔ ∀ v ∈ items, Clean leaf v := Value.every_list

theorem clean_dict {members : Dict} : Clean leaf (.dict members) ↔ ∀ m ∈ members, Clean leaf m.2 := by
  rw [Clean,Value.every_dict]
  simp [Clean]

theorem Lenient.clean_null (lenient : Lenient leaf) : Clean leaf .null := lenient.null

theorem Lenient.clean_bool (lenient : Lenient leaf) (b : Bool) : Clean leaf (.bool b) := lenient.bool b

theorem Lenient.clean_str (lenient : Lenient leaf) (s : Str) : Clean leaf (.str s) := lenient.str s

theorem Lenient.clean_texts (lenient : Lenient leaf) (texts : List Str) : Clean leaf (.list (texts.map .str)) := by
  rw [clean_list,List.forall_mem_map]
  exact fun s _ => lenient.str s

theorem Lenient.clean_get (lenient : Lenient leaf) {d : Dict} (key : Str) (clean : Clean leaf (.dict d)) :
    Clean leaf (Dict.get d key) := Value.every_get key lenient.null clean

theorem clean_set {d : Dict} {key : Str} {value : Value} (clean : Clean leaf (.dict d)) (new : Clean leaf value) :
    Clean leaf (.dict (Dict.set d key value)) := Value.every_set clean rfl new

theorem clean_erase {d : Dict} {key : Str} (clean : Clean leaf (.dict d)) : Clean leaf (.dict (Assoc.erase key d)) := by
  rw [clean_dict] at clean ⊢
  induction d with
  | nil => exact clean
  | cons m rest ih =>
    rw [List.forall_mem_cons] at clean
    rw [Assoc.erase]
    split
    next => exact ih clean.2
    next => exact List.forall_mem_cons.mpr ⟨clean.1,ih clean.2⟩

theorem clean_nil : Clean leaf (.dict []) := rfl

end Clean

section Resolving

variable [Unicode] {leaf : Value → Bool} {document : Dict}

theorem clean_dereference (clean : Clean leaf (.dict document)) {target origin : Str} {found : Value}
    (read : dereference document target origin = .ok found) : Clean leaf found := by
  refine loop_keeps (Clean leaf) (fun current token next _ before step => ?_) clean read
  unfold descend at step
  dsimp only at step
  split at step
  next members =>
    split at step
    next there =>
      cases step
      exact clean_dict.mp before _ (Assoc.mem_of_get there)
    next => cases step
  next items =>
    split at step
    next => cases step
    next =>
      split at step
      next => cases step
      next =>
        split at step
        next there =>
          cases step
          exact clean_list.mp before _ (List.mem_of_getElem? there)
        next => cases step
  next => cases step

theorem clean_resolveNode (clean : Clean leaf (.dict document)) {levels : Nat} {node result : Value} {pointer : Str}
    {seen : List Str} (given : Clean leaf node) (resolved : resolveNode document levels node pointer seen = .ok result) :
    Clean leaf result := by
  induction levels generalizing node result pointer seen with
  | zero => cases resolved
  | succ levels ih =>
    unfold resolveNode at resolved
    split at resolved
    next members =>
      rw [clean_dict] at given
      split at resolved
      next =>
        obtain ⟨entries,built,resolved⟩ := bind_eq_ok.mp resolved
        cases resolved
        rw [clean_dict]
        intro entry member
        obtain ⟨m,inside,done⟩ := exists_left (each_eq_ok.mp built) member
        obtain ⟨value,value_,done⟩ := bind_eq_ok.mp done
        cases done
        exact ih (given m inside) value_
      next =>
        obtain ⟨target,_,resolved⟩ := bind_eq_ok.mp resolved
        obtain ⟨_,resolved⟩ := refuse_bind_eq_ok.mp resolved
        obtain ⟨found,read,resolved⟩ := bind_eq_ok.mp resolved
        obtain ⟨base,inlined,resolved⟩ := bind_eq_ok.mp resolved
        have inside := ih (clean_dereference clean read) inlined
        split at resolved
        next =>
          cases resolved
          exact inside
        next siblings base _ _ =>
          obtain ⟨merged,overlaid,resolved⟩ := bind_eq_ok.mp resolved
          cases resolved
          refine loop_keeps (fun d => Clean leaf (.dict d)) (fun d entry next member before step => ?_) inside overlaid
          obtain ⟨value,value_,rfl⟩ := overlay_eq_ok step
          exact clean_set before (ih (given entry (List.mem_of_mem_filter member)) value_)
        next =>
          cases resolved
          exact inside
    next items =>
      obtain ⟨out,built,resolved⟩ := bind_eq_ok.mp resolved
      cases resolved
      rw [clean_list] at given ⊢
      intro v member
      obtain ⟨item,inside,done⟩ := exists_left (each_eq_ok.mp built) member
      exact ih (given item.1 (List.fst_mem_of_mem_zipIdx inside)) done
    next =>
      cases resolved
      exact given

end Resolving

section Converting

variable {leaf : Value → Bool} {schema converted next : Dict} {pointer : Str}

theorem clean_applyNullable (lenient : Lenient leaf) (before : Clean leaf (.dict converted))
    (done : applyNullable schema converted pointer = .ok next) : Clean leaf (.dict next) := by
  unfold applyNullable at done
  split at done
  next =>
    cases done
    exact before
  next =>
    cases done
    refine clean_set before (clean_list.mpr ?_)
    simp only [List.forall_mem_cons]
    exact ⟨lenient.clean_get _ before,lenient.clean_str _,by simp⟩
  next =>
    cases done
    exact before
  next => cases done

theorem clean_annotate (lenient : Lenient leaf) {keyword : Str} (before : Clean leaf (.dict converted))
    (done : annotate schema pointer converted keyword = .ok next) : Clean leaf (.dict next) := by
  unfold annotate at done
  split at done
  next =>
    split at done
    next =>
      dsimp only at done
      split at done
      next =>
        cases done
        exact before
      next =>
        cases done
        exact clean_set before (lenient.clean_str _)
    next => cases done
  next =>
    cases done
    exact before

theorem clean_applyEnum (lenient : Lenient leaf) {t : JsonType} (given : Clean leaf (.dict schema))
    (before : Clean leaf (.dict converted)) (done : applyEnum schema converted t pointer = .ok next) :
    Clean leaf (.dict next) := by
  unfold applyEnum at done
  split at done
  next =>
    split at done
    next found =>
      split at done
      next =>
        cases done
        exact clean_set before (found ▸ lenient.clean_get _ given)
      next => cases done
    next => cases done
  next =>
    cases done
    exact before

theorem clean_applyDefault (lenient : Lenient leaf) {t : JsonType} (given : Clean leaf (.dict schema))
    (before : Clean leaf (.dict converted)) (done : applyDefault schema converted t pointer = .ok next) :
    Clean leaf (.dict next) := by
  unfold applyDefault at done
  split at done
  next =>
    dsimp only at done
    split at done
    next => cases done
    next =>
      split at done
      next =>
        split at done
        next =>
          cases done
          exact clean_set before (lenient.clean_get _ given)
        next => cases done
      next =>
        cases done
        exact clean_set before (lenient.clean_get _ given)
  next =>
    cases done
    exact before

theorem clean_copySupported (lenient : Lenient leaf) {keyword : Str} (given : Clean leaf (.dict schema))
    (before : Clean leaf (.dict converted)) (done : copySupported schema pointer converted keyword = .ok next) :
    Clean leaf (.dict next) := by
  unfold copySupported at done
  split at done
  next =>
    dsimp only at done
    split at done
    all_goals
      split at done
      all_goals first
        | (cases done; exact clean_set before (lenient.clean_get _ given))
        | cases done
  next =>
    cases done
    exact before

theorem clean_applyExclusiveBound (lenient : Lenient leaf) {bounds : Str × Str} (given : Clean leaf (.dict schema))
    (before : Clean leaf (.dict converted)) (done : applyExclusiveBound schema pointer converted bounds = .ok next) :
    Clean leaf (.dict next) := by
  unfold applyExclusiveBound at done
  dsimp only at done
  split at done
  next =>
    split at done
    next =>
      cases done
      exact before
    next =>
      split at done
      next => cases done
      next inclusive =>
        cases done
        exact clean_set (clean_erase before) (lenient.clean_get _ before)
    next n found =>
      cases done
      exact clean_set before (found ▸ lenient.clean_get _ given)
    next x found =>
      cases done
      exact clean_set before (found ▸ lenient.clean_get _ given)
    next => cases done
  next =>
    cases done
    exact before

variable [Unicode]

omit [Unicode] in
theorem clean_convertObject (lenient : Lenient leaf) {nested : Value → Str → Except PyExc Dict} {required : List Str}
    (each_ : ∀ v p d, Clean leaf v → nested v p = .ok d → Clean leaf (.dict d)) (given : Clean leaf (.dict schema))
    (done : convertObject nested schema pointer = .ok (next,required)) : Clean leaf (.dict next) := by
  unfold convertObject at done
  dsimp only at done
  split at done
  next first rest found =>
    rw [ok_bind] at done
    obtain ⟨_,done⟩ := refuse_bind_eq_ok.mp done
    obtain ⟨properties,looped,done⟩ := bind_eq_ok.mp done
    have members : Clean leaf (.dict (first::rest)) := found ▸ lenient.clean_get _ given
    have kept : Clean leaf (.dict properties) := by
      refine loop_keeps (fun d => Clean leaf (.dict d)) (fun d entry next_ member before step => ?_) clean_nil looped
      split at step
      next => cases step
      next =>
        split at step
        next converted_ =>
          cases step
          exact clean_set before (each_ _ _ _ (clean_dict.mp members entry member) converted_)
        next => cases step
    split at done
    next =>
      obtain ⟨_,_,done⟩ := bind_eq_ok.mp done
      cases done
      exact kept
    next =>
      split at done
      next =>
        rw [error_bind] at done
        cases done
      next =>
        rw [ok_bind] at done
        cases done
        exact kept
  next =>
    rw [error_bind] at done
    cases done

omit [Unicode] in
theorem clean_applyType (lenient : Lenient leaf) {nested : Value → Str → Except PyExc Dict} {t : JsonType}
    (each_ : ∀ v p d, Clean leaf v → nested v p = .ok d → Clean leaf (.dict d)) (given : Clean leaf (.dict schema))
    (before : Clean leaf (.dict converted)) (done : applyType nested schema converted t pointer = .ok next) :
    Clean leaf (.dict next) := by
  have copied : ∀ {keywords : List Str} {out : Dict}, loop (copySupported schema pointer) converted keywords = .ok out →
      Clean leaf (.dict out) := fun looped => loop_keeps (fun d => Clean leaf (.dict d))
    (fun _ _ _ _ held step => clean_copySupported lenient given held step) before looped
  have bounded : ∀ {out : Dict}, (do
      let copy ← loop (copySupported schema pointer) converted numberKeywords
      loop (applyExclusiveBound schema pointer) copy exclusiveBounds) = .ok out → Clean leaf (.dict out) := by
    intro out done
    obtain ⟨copy,looped,done⟩ := bind_eq_ok.mp done
    exact loop_keeps (fun d => Clean leaf (.dict d))
      (fun _ _ _ _ held step => clean_applyExclusiveBound lenient given held step) (copied looped) done
  cases t with
  | string => exact copied done
  | integer => exact bounded done
  | number => exact bounded done
  | array =>
    obtain ⟨copy,looped,done⟩ := bind_eq_ok.mp done
    split at done
    next => cases done
    next =>
      obtain ⟨element,element_,done⟩ := bind_eq_ok.mp done
      cases done
      exact clean_set (copied looped) (each_ _ _ _ (lenient.clean_get _ given) element_)
  | object =>
    obtain ⟨⟨properties,required⟩,object,done⟩ := bind_eq_ok.mp done
    cases done
    have inside := clean_convertObject lenient each_ given object
    exact clean_set (clean_set (clean_set before inside) (lenient.clean_texts required)) (lenient.clean_bool false)
  | boolean =>
    cases done
    exact before
  | null =>
    cases done
    exact before

theorem clean_convertSchema (lenient : Lenient leaf) {levels : Nat} {v : Value} (given : Clean leaf v)
    (done : convertSchema levels v pointer = .ok next) : Clean leaf (.dict next) := by
  induction levels generalizing v pointer next with
  | zero =>
    cases v with
    | dict schema => cases done
    | _ => cases done
  | succ levels ih =>
    cases v with
    | dict schema =>
      unfold convertSchema at done
      dsimp only at done
      split at done
      next => cases done
      next =>
        obtain ⟨_,done⟩ := refuse_bind_eq_ok.mp done
        obtain ⟨t,_,done⟩ := bind_eq_ok.mp done
        obtain ⟨typed,nullable,done⟩ := bind_eq_ok.mp done
        obtain ⟨annotated,annotations,done⟩ := bind_eq_ok.mp done
        obtain ⟨listed,enum,done⟩ := bind_eq_ok.mp done
        obtain ⟨defaulted,default,done⟩ := bind_eq_ok.mp done
        obtain ⟨final,typing,done⟩ := bind_eq_ok.mp done
        obtain ⟨_,_,done⟩ := bind_eq_ok.mp done
        cases done
        have start : Clean leaf (.dict [(Str.lit "type",.str t.text)]) :=
          clean_dict.mpr (by simp only [List.forall_mem_singleton]; exact lenient.clean_str _)
        have annotated_ := loop_keeps (fun d => Clean leaf (.dict d))
          (fun _ _ _ _ before step => clean_annotate lenient before step) (clean_applyNullable lenient start nullable)
          annotations
        have before := clean_applyDefault lenient given (clean_applyEnum lenient given annotated_ enum) default
        exact clean_applyType lenient (fun _ _ _ inside made => ih inside made) given before typing
    | _ => cases done

end Converting

section Operations

variable [Unicode] {leaf : Value → Bool} {pathItem operation : Dict}

theorem clean_parseParameter (lenient : Lenient leaf) {source : Str} {entry : Value} {parameter : Parameter}
    (given : Clean leaf entry) (done : parseParameter source entry = .ok parameter) : Clean leaf (.dict parameter.schema) := by
  cases entry with
  | dict entry =>
    obtain ⟨name,_,done⟩ := bind_eq_ok.mp done
    obtain ⟨location,_,done⟩ := bind_eq_ok.mp done
    obtain ⟨required,_,done⟩ := bind_eq_ok.mp done
    obtain ⟨_,done⟩ := refuse_bind_eq_ok.mp done
    obtain ⟨_,_,done⟩ := bind_eq_ok.mp done
    obtain ⟨_,done⟩ := refuse_bind_eq_ok.mp done
    have schema_ := lenient.clean_get "schema" given
    split at done
    next schema found =>
      rw [found] at schema_
      split at done
      next =>
        cases done
        exact schema_
      next =>
        cases done
        exact schema_
      next => cases done
    next => cases done
  | _ => cases done

theorem clean_collectFrom (lenient : Lenient leaf) {source : Str} {merged next : List (ParameterKey × Parameter)}
    {raw : Value} (given : Clean leaf raw) (before : ∀ p ∈ merged, Clean leaf (.dict p.2.schema))
    (done : collectFrom source merged raw = .ok next) : ∀ p ∈ next, Clean leaf (.dict p.2.schema) := by
  unfold collectFrom at done
  split at done
  next =>
    cases done
    exact before
  next entries =>
    obtain ⟨⟨keys,out⟩,looped,done⟩ := bind_eq_ok.mp done
    cases done
    refine loop_keeps (fun s : List ParameterKey × List (ParameterKey × Parameter) =>
      ∀ p ∈ s.2, Clean leaf (.dict p.2.schema)) (fun s entry next_ member held step => ?_) before looped
    obtain ⟨parameter,parsed,step⟩ := bind_eq_ok.mp step
    obtain ⟨_,step⟩ := refuse_bind_eq_ok.mp step
    cases step
    intro p inside
    rcases Assoc.mem_set inside with rfl | old
    · exact clean_parseParameter lenient (clean_list.mp given entry member) parsed
    · exact held p old
  next => cases done

theorem clean_collectParameters (lenient : Lenient leaf) (item_ : Clean leaf (.dict pathItem))
    (operation_ : Clean leaf (.dict operation)) {parameters : List Parameter}
    (done : collectParameters pathItem operation = .ok parameters) : ∀ p ∈ parameters, Clean leaf (.dict p.schema) := by
  obtain ⟨shared,first,done⟩ := bind_eq_ok.mp done
  obtain ⟨merged,second,done⟩ := bind_eq_ok.mp done
  cases done
  rw [List.forall_mem_map]
  exact clean_collectFrom lenient (lenient.clean_get _ operation_)
    (clean_collectFrom lenient (lenient.clean_get _ item_) (by simp) first) second

theorem clean_addParameter (lenient : Lenient leaf) {table next : ArgumentTable} {parameter : Parameter}
    (given : Clean leaf (.dict parameter.schema)) (before : Clean leaf (.dict table.properties))
    (done : addParameter table parameter = .ok next) : Clean leaf (.dict next.properties) := by
  obtain ⟨_,done⟩ := refuse_bind_eq_ok.mp done
  obtain ⟨schema,converted,done⟩ := bind_eq_ok.mp done
  obtain ⟨binding,_,done⟩ := bind_eq_ok.mp done
  cases done
  have schema_ := clean_convertSchema lenient given converted
  refine clean_set before ?_
  split
  next c text _ =>
    unfold setDefault
    split
    next => exact schema_
    next => exact clean_set schema_ (lenient.clean_str _)
  next => exact schema_

theorem clean_convertRequestBody (lenient : Lenient leaf) {table next : ArgumentTable} {jsonBody : Bool}
    (given : Clean leaf (.dict operation)) (before : Clean leaf (.dict table.properties))
    (done : convertRequestBody operation table = .ok (next,jsonBody)) : Clean leaf (.dict next.properties) := by
  unfold convertRequestBody at done
  have body_ := lenient.clean_get "requestBody" given
  split at done
  next =>
    cases done
    exact before
  next body found =>
    rw [found] at body_
    obtain ⟨schema,read,done⟩ := bind_eq_ok.mp done
    obtain ⟨_,done⟩ := refuse_bind_eq_ok.mp done
    obtain ⟨converted,conversion,done⟩ := bind_eq_ok.mp done
    obtain ⟨_,done⟩ := refuse_bind_eq_ok.mp done
    obtain ⟨required,_,done⟩ := bind_eq_ok.mp done
    obtain ⟨bindings,_,done⟩ := bind_eq_ok.mp done
    cases done
    have schema_ : Clean leaf (.dict schema) := by
      have content_ := lenient.clean_get "content" body_
      unfold bodySchema at read
      split at read
      next first rest content =>
        rw [content] at content_
        dsimp only at read
        split at read
        next =>
          have media_ := lenient.clean_get jsonMediaType content_
          split at read
          next media media_found =>
            rw [media_found] at media_
            have inside := lenient.clean_get "schema" media_
            split at read
            next found_ =>
              cases read
              exact found_ ▸ inside
            next => cases read
          next => cases read
        next => cases read
      next => cases read
    exact clean_set before (clean_convertSchema lenient schema_ conversion)
  next => cases done

variable [Pydantic]

/-- The input schema of a converted tool holds nothing but what its operation and path item hold. -/
theorem clean_convertOperation (lenient : Lenient leaf) {path method : Str} {tool : ToolDefinition}
    (item_ : Clean leaf (.dict pathItem)) (operation_ : Clean leaf (.dict operation))
    (done : convertOperation path method pathItem operation = .ok tool) : Clean leaf (.dict tool.inputSchema) := by
  unfold convertOperation at done
  split at done
  next => cases done
  next normalized _ =>
    obtain ⟨_,_,done⟩ := bind_eq_ok.mp done
    obtain ⟨⟨table,jsonBody⟩,arguments,done⟩ := bind_eq_ok.mp done
    obtain ⟨operationId,_,done⟩ := bind_eq_ok.mp done
    obtain ⟨toolName,_,done⟩ := bind_eq_ok.mp done
    obtain ⟨_,_,_,_,schema⟩ := buildTool_eq_ok done
    obtain ⟨parameters,collected,arguments⟩ := bind_eq_ok.mp arguments
    obtain ⟨_,_,arguments⟩ := bind_eq_ok.mp arguments
    obtain ⟨own,added,arguments⟩ := bind_eq_ok.mp arguments
    have parameters_ := clean_collectParameters lenient item_ operation_ collected
    have own_ := loop_keeps (fun table : ArgumentTable => Clean leaf (.dict table.properties))
      (fun _ parameter _ member before step => clean_addParameter lenient (parameters_ parameter member) before step)
      clean_nil added
    have properties := clean_convertRequestBody lenient operation_ own_ arguments
    rw [schema,inputSchemaOf,clean_dict]
    simp only [List.forall_mem_cons]
    exact ⟨lenient.clean_str _,lenient.clean_str _,properties,lenient.clean_texts _,lenient.clean_bool _,by simp⟩

/-- What an analyzed operation stores of the description. -/
structure AnalyzedOperation.Clean (leaf : Value → Bool) (o : AnalyzedOperation) : Prop where
  source : OpenApi.Clean leaf (.dict o.sourceOperation)
  schema : ∀ tool, o.tool = some tool → OpenApi.Clean leaf (.dict tool.inputSchema)

theorem clean_analyzeOperation (lenient : Lenient leaf) {path : Str} {method : HttpMethod} {source : Value} {pointer : Str}
    {seen later : SeenNames} {o : AnalyzedOperation} (item_ : Clean leaf (.dict pathItem)) (source_ : Clean leaf source)
    (done : analyzeOperation path method pathItem source pointer seen = .ok (o,later)) : o.Clean leaf := by
  unfold analyzeOperation at done
  split at done
  next members =>
    split at done
    next tool converted =>
      unfold acceptTool at done
      split at done
      next =>
        cases done
        exact ⟨source_,fun _ none_ => by cases none_⟩
      next =>
        cases done
        refine ⟨source_,?_⟩
        rintro _ ⟨⟩
        exact clean_convertOperation lenient item_ source_ converted
    next =>
      split at done
      next =>
        cases done
        exact ⟨source_,fun _ none_ => by cases none_⟩
      next => cases done
  next =>
    cases done
    exact ⟨clean_nil,fun _ none_ => by cases none_⟩

theorem clean_analyzeMethods (lenient : Lenient leaf) {limits : SourceLimits} {path pathPointer : Str}
    (item_ : Clean leaf (.dict pathItem)) {methods : List HttpMethod} {state next : Analysis}
    (before : ∀ o ∈ state.operations, o.Clean leaf)
    (done : analyzeMethods limits path pathPointer pathItem state methods = .ok next) :
    ∀ o ∈ next.operations, o.Clean leaf := by
  induction methods generalizing state with
  | nil =>
    cases done
    exact before
  | cons method rest ih =>
    cases offered : offers pathItem method with
    | false =>
      rw [analyzeMethods_absent limits path pathPointer state rest offered] at done
      exact ih before done
    | true =>
      rw [analyzeMethods_present limits path pathPointer state rest offered] at done
      split at done
      next =>
        cases done
        exact before
      next =>
        split at done
        next => cases done
        next analyzed seen one =>
          refine ih ?_ done
          rw [List.forall_mem_append]
          refine ⟨before,?_⟩
          rw [List.forall_mem_singleton]
          exact clean_analyzeOperation lenient item_ (lenient.clean_get _ item_) one

/-- An analysis stores nothing but what the document holds. -/
theorem clean_analyzeDocument (lenient : Lenient leaf) {limits : SourceLimits} {loaded : LoadedDocument}
    {override : Option Str} {analysis : AnalysisResult} (clean : Clean leaf (.dict loaded.document))
    (done : analyzeDocument limits loaded override = .ok analysis) : ∀ o ∈ analysis.operations, o.Clean leaf := by
  obtain ⟨⟨baseUrl,_⟩,_,done⟩ := bind_eq_ok.mp done
  obtain ⟨state,looped,done⟩ := bind_eq_ok.mp done
  cases done
  have paths : Clean leaf (.dict loaded.paths) := loaded.hasPaths ▸ lenient.clean_get _ clean
  refine loop_keeps (fun state : Analysis => ∀ o ∈ state.operations, o.Clean leaf)
    (fun state entry next member before step => ?_) (by simp) looped
  have entry_ := clean_dict.mp paths entry ((List.mem_insertionSort _).mp member)
  unfold analyzePath at step
  dsimp only at step
  split at step
  next =>
    cases step
    exact before
  next =>
    split at step
    next raw shape =>
      rw [shape] at entry_
      split at step
      next =>
        split at step
        next =>
          cases step
          exact before
        next => cases step
      next pathItem resolved =>
        obtain ⟨analyzed,methods,step⟩ := bind_eq_ok.mp step
        cases step
        have after := clean_analyzeMethods lenient (clean_resolveNode clean entry_ resolved) before methods
        exact after
      next => cases step
    next =>
      cases step
      exact before

end Operations

end ToolLayer.OpenApi
