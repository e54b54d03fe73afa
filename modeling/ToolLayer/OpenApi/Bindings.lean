import Mathlib.Algebra.Order.BigOperators.Group.List
import ToolLayer.OpenApi.Converter

/-! What a converted tool binds: every parameter under its own name, in order, and
no name that would need escaping in a pointer. -/
namespace ToolLayer.OpenApi
open Python Kit Kit.Result

theorem split_head {name rest : Str} (plain : name.any needsEscape = false)
    (ends : rest = [] ∨ rest.head? = some (CodePoint.ofChar '/')) : (Str.split (name ++ rest) '/').head? = some name := by
  have clean : ∀ c ∈ name, (c == CodePoint.ofChar '/') = false := by
    intro c member
    have kept := List.any_eq_false.mp plain c member
    rw [needsEscape,Bool.or_eq_true,not_or,Bool.not_eq_true] at kept
    exact Bool.not_eq_true _ ▸ kept.2
  rcases ends with rfl | slash
  · rw [List.append_nil,Str.split,Split.cut_clean _ _ clean]
    rfl
  · obtain ⟨tail,rfl⟩ := List.head?_eq_some_iff.mp slash
    rw [Str.split,Split.cut_append_clean _ name _ [] (Split.cut (fun x => x == CodePoint.ofChar '/') tail) clean
      (Split.cut_sep _ _ _ (beq_self_eq_true _))]
    simp

theorem bindingRoot_plain {name rest : Str} (plain : name.any needsEscape = false)
    (ends : rest = [] ∨ name ≠ [] ∧ rest.head? = some (CodePoint.ofChar '/')) :
    ToolDefinition.bindingRoot (CodePoint.ofChar '/' :: (name ++ rest)) = name := by
  have stripped : Str.lstrip (fun c => c == CodePoint.ofChar '/') (CodePoint.ofChar '/' :: (name ++ rest)) = name ++ rest := by
    rw [Str.lstrip,List.dropWhile_cons_of_pos (by simp)]
    cases name with
    | nil =>
      rcases ends with rfl | ⟨some_,_⟩
      · rfl
      · exact absurd rfl some_
    | cons c name =>
      refine List.dropWhile_cons_of_neg (fun slash => ?_)
      rw [beq_iff_eq.mp slash,List.any_cons] at plain
      cases plain
  rw [ToolDefinition.bindingRoot,stripped,List.headD_eq_head?_getD,split_head plain (ends.imp_right And.right)]
  rfl

theorem bindingRoot_escape (name : Str) :
    ToolDefinition.bindingRoot (CodePoint.ofChar '/' :: escape name) = escape name := by
  have clean := slash_not_mem_escape name
  have stripped : Str.lstrip (fun c => c == CodePoint.ofChar '/') (CodePoint.ofChar '/' :: escape name) =
      escape name := by
    rw [Str.lstrip,List.dropWhile_cons_of_pos (by simp)]
    cases shape : escape name with
    | nil => rfl
    | cons c rest =>
      refine List.dropWhile_cons_of_neg (fun slash => clean ?_)
      rw [shape,← beq_iff_eq.mp slash]
      simp
  rw [ToolDefinition.bindingRoot,stripped,Str.split,Split.cut_clean]
  · rfl
  · intro c member
    rw [beq_eq_false_iff_ne]
    intro slash
    exact clean (slash ▸ member)

/-- The binding made for a parameter. -/
def Binds (parameter : Parameter) (binding : ArgumentBinding) : Prop :=
  binding.argumentPointer = CodePoint.ofChar '/' :: escape parameter.name ∧
  binding.target = parameter.location.target ∧ binding.targetName = parameter.name

theorem make_binding_eq_ok {pointer name : Str} {target : BindingTarget} {binding : ArgumentBinding}
    (made : ArgumentBinding.make pointer target name = .ok binding) :
    binding.argumentPointer = pointer ∧ binding.target = target ∧ binding.targetName = name := by
  obtain ⟨accepted,rfl⟩ := validated_eq_ok.mp made
  exact ⟨rfl,rfl,rfl⟩

theorem buildTool_eq_ok [Pydantic] {path : Str} {method : HttpMethod} {operation : Dict} {table : ArgumentTable}
    {jsonBody : Bool} {operationId : Option Str} {toolName : Str} {tool : ToolDefinition}
    (built : buildTool path method operation table jsonBody operationId toolName = .ok tool) :
    tool.toolName = toolName ∧ tool.operation.method = method ∧ tool.operation.pathTemplate = path ∧
      tool.operation.bindings = table.bindings ∧ tool.inputSchema = inputSchemaOf table := by
  unfold buildTool at built
  obtain ⟨bound,made,built⟩ := bind_eq_ok.mp built
  obtain ⟨tags,_,built⟩ := bind_eq_ok.mp built
  obtain ⟨deprecated,_,built⟩ := bind_eq_ok.mp built
  obtain ⟨provenance,_,built⟩ := bind_eq_ok.mp built
  obtain ⟨_,rfl⟩ := validated_eq_ok.mp made
  obtain ⟨_,rfl⟩ := validated_eq_ok.mp built
  exact ⟨rfl,rfl,rfl,rfl,rfl⟩

theorem declaredNames_inputSchemaOf (table : ArgumentTable) :
    ToolDefinition.declaredNames (inputSchemaOf table) = Assoc.keys table.properties := by
  simp [ToolDefinition.declaredNames,inputSchemaOf,Dict.get]

variable [Unicode]

theorem addParameter_eq_ok {table next : ArgumentTable} {parameter : Parameter}
    (added : addParameter table parameter = .ok next) :
    ∃ binding, Binds parameter binding ∧ next.bindings = table.bindings ++ [binding] ∧
      parameter.name ∉ Assoc.keys table.properties ∧
      Assoc.keys next.properties = Assoc.keys table.properties ++ [parameter.name] := by
  unfold addParameter at added
  obtain ⟨fresh,added⟩ := refuse_bind_eq_ok.mp added
  obtain ⟨schema,_,added⟩ := bind_eq_ok.mp added
  obtain ⟨binding,made,added⟩ := bind_eq_ok.mp added
  have absent : parameter.name ∉ Assoc.keys table.properties := by
    rw [← Assoc.get_isSome_iff]
    simpa [Dict.has] using fresh
  cases added
  refine ⟨binding,make_binding_eq_ok made,rfl,absent,?_⟩
  simp only [Dict.set]
  rw [Assoc.keys_set,if_neg absent]

theorem addParameters_eq_ok {table next : ArgumentTable} {parameters : List Parameter}
    (added : loop addParameter table parameters = .ok next) :
    ∃ bindings, List.Forall₂ Binds parameters bindings ∧ next.bindings = table.bindings ++ bindings ∧
      Assoc.keys next.properties = Assoc.keys table.properties ++ parameters.map Parameter.name := by
  induction parameters generalizing table with
  | nil =>
    cases added
    exact ⟨[],List.Forall₂.nil,by simp,by simp⟩
  | cons parameter rest ih =>
    obtain ⟨middle,first,tail⟩ := loop_cons_eq_ok.mp added
    obtain ⟨binding,binds,grown,_,keys⟩ := addParameter_eq_ok first
    obtain ⟨bindings,all,later,names⟩ := ih tail
    exact ⟨binding::bindings,List.Forall₂.cons binds all,by simp [later,grown],by simp [names,keys]⟩

/-- A request body adds bindings for its own fields and at most one argument. -/
theorem convertRequestBody_eq_ok {operation : Dict} {table next : ArgumentTable} {jsonBody : Bool}
    (converted : convertRequestBody operation table = .ok (next,jsonBody)) :
    (∃ bindings, (∀ b ∈ bindings, b.target = .body) ∧ next.bindings = table.bindings ++ bindings) ∧
      ∀ name ∈ Assoc.keys next.properties, name ∈ Assoc.keys table.properties ∨ name = bodyArgument := by
  unfold convertRequestBody at converted
  split at converted
  next =>
    cases converted
    exact ⟨⟨[],by simp,by simp⟩,fun name member => Or.inl member⟩
  next body _ =>
    obtain ⟨schema,_,converted⟩ := bind_eq_ok.mp converted
    obtain ⟨_,converted⟩ := refuse_bind_eq_ok.mp converted
    obtain ⟨fields,_,converted⟩ := bind_eq_ok.mp converted
    obtain ⟨_,converted⟩ := refuse_bind_eq_ok.mp converted
    obtain ⟨required,_,converted⟩ := bind_eq_ok.mp converted
    obtain ⟨bindings,made,converted⟩ := bind_eq_ok.mp converted
    cases converted
    refine ⟨⟨bindings,?_,rfl⟩,?_⟩
    · intro b member
      obtain ⟨name,_,bound⟩ := exists_left (each_eq_ok.mp made) member
      exact (make_binding_eq_ok bound).2.1
    · intro name member
      simp only [Dict.set] at member
      rw [Assoc.keys_set] at member
      split at member
      next present => exact Or.inl member
      next absent => simpa [bodyArgument] using member
  next => cases converted

/-- The bindings of body fields read the body argument, which is then declared. -/
theorem convertRequestBody_rooted {operation : Dict} {table next : ArgumentTable} {jsonBody : Bool}
    (converted : convertRequestBody operation table = .ok (next,jsonBody)) :
    ∃ bindings, next.bindings = table.bindings ++ bindings ∧
      (∀ b ∈ bindings, ToolDefinition.bindingRoot b.argumentPointer ∈ Assoc.keys next.properties) ∧
      Assoc.keys table.properties ⊆ Assoc.keys next.properties := by
  unfold convertRequestBody at converted
  split at converted
  next =>
    cases converted
    exact ⟨[],by simp,by simp,fun _ => id⟩
  next body _ =>
    obtain ⟨schema,_,converted⟩ := bind_eq_ok.mp converted
    obtain ⟨_,converted⟩ := refuse_bind_eq_ok.mp converted
    obtain ⟨fields,_,converted⟩ := bind_eq_ok.mp converted
    obtain ⟨_,converted⟩ := refuse_bind_eq_ok.mp converted
    obtain ⟨required,_,converted⟩ := bind_eq_ok.mp converted
    obtain ⟨bindings,made,converted⟩ := bind_eq_ok.mp converted
    cases converted
    refine ⟨bindings,rfl,?_,?_⟩
    · intro b member
      obtain ⟨name,_,bound⟩ := exists_left (each_eq_ok.mp made) member
      rw [(make_binding_eq_ok bound).1,bindingRoot_plain (by decide) (.inr ⟨by decide,rfl⟩)]
      simp only [Dict.set]
      rw [Assoc.keys_set]
      split
      next present => exact present
      next => simp
    · intro name member
      simp only [Dict.set]
      rw [Assoc.keys_set]
      split
      next => exact member
      next => exact List.mem_append_left _ member
  next => cases converted

variable [Pydantic]

/-- What a converted tool consists of, in terms of the parameters it was made from. -/
structure MadeFrom (path : Str) (parameters : List Parameter) (tool : ToolDefinition) : Prop where
  template : tool.operation.pathTemplate = path
  placeholders : checkPathPlaceholders path parameters = .ok ()
  bindings : ∃ own body, List.Forall₂ Binds parameters own ∧ (∀ b ∈ body, b.target = .body) ∧
    tool.operation.bindings = own ++ body
  declared : ∀ name ∈ ToolDefinition.declaredNames tool.inputSchema,
    name ∈ parameters.map Parameter.name ∨ name = bodyArgument

theorem convertOperation_madeFrom {path method : Str} {pathItem operation : Dict} {tool : ToolDefinition}
    (converted : convertOperation path method pathItem operation = .ok tool) :
    ∃ parameters, MadeFrom path parameters tool := by
  unfold convertOperation at converted
  split at converted
  next => cases converted
  next normalized _ =>
    obtain ⟨_,_,converted⟩ := bind_eq_ok.mp converted
    obtain ⟨⟨table,jsonBody⟩,arguments,converted⟩ := bind_eq_ok.mp converted
    obtain ⟨operationId,_,converted⟩ := bind_eq_ok.mp converted
    obtain ⟨toolName,_,converted⟩ := bind_eq_ok.mp converted
    obtain ⟨_,_,template,bindings,schema⟩ := buildTool_eq_ok converted
    unfold argumentsOf at arguments
    obtain ⟨parameters,_,arguments⟩ := bind_eq_ok.mp arguments
    obtain ⟨_,placeholders,arguments⟩ := bind_eq_ok.mp arguments
    obtain ⟨start,added,arguments⟩ := bind_eq_ok.mp arguments
    obtain ⟨own,binds,grown,names⟩ := addParameters_eq_ok added
    obtain ⟨⟨body,targets,all⟩,declared⟩ := convertRequestBody_eq_ok arguments
    refine ⟨parameters,template,placeholders,⟨own,body,binds,targets,?_⟩,?_⟩
    · rw [bindings,all,grown,List.nil_append]
    · intro name member
      rw [schema,declaredNames_inputSchemaOf] at member
      simpa [names] using declared name member

/-- The input schema of a converted tool is put together from its arguments. -/
theorem convertOperation_inputSchema {path method : Str} {pathItem operation : Dict} {tool : ToolDefinition}
    (converted : convertOperation path method pathItem operation = .ok tool) :
    ∃ table, tool.inputSchema = inputSchemaOf table := by
  unfold convertOperation at converted
  split at converted
  next => cases converted
  next normalized _ =>
    obtain ⟨_,_,converted⟩ := bind_eq_ok.mp converted
    obtain ⟨⟨table,jsonBody⟩,_,converted⟩ := bind_eq_ok.mp converted
    obtain ⟨operationId,_,converted⟩ := bind_eq_ok.mp converted
    obtain ⟨toolName,_,converted⟩ := bind_eq_ok.mp converted
    obtain ⟨_,_,_,_,schema⟩ := buildTool_eq_ok converted
    exact ⟨table,schema⟩

omit [Unicode] [Pydantic] in
/-- Each escaped spelling is a longer name of the same kind, and the list is finite. -/
theorem plain_of_escaped {names : List Str}
    (escaped : ∀ name ∈ names, name.any needsEscape = true → escape name ∈ names) :
    ∀ name ∈ names, name.any needsEscape = false := by
  intro name member
  by_contra special
  rw [Bool.not_eq_false] at special
  have longer : ∀ n : Nat, ∃ other ∈ names, other.any needsEscape = true ∧ n ≤ other.length := by
    intro n
    induction n with
    | zero => exact ⟨name,member,special,Nat.zero_le _⟩
    | succ n ih =>
      obtain ⟨other,inside,again,bound⟩ := ih
      obtain ⟨grown,special⟩ := escape_special again
      exact ⟨escape other,escaped other inside again,special,by omega⟩
  obtain ⟨other,inside,_,bound⟩ := longer ((names.map List.length).sum + 1)
  have total : other.length ≤ (names.map List.length).sum :=
    List.single_le_sum (fun _ _ => Nat.zero_le _) _ (List.mem_map.mpr ⟨other,inside,rfl⟩)
  omega

/-- A parameter name that needs escaping makes its escaped spelling a parameter name too. -/
theorem MadeFrom.escaped_name {path : Str} {parameters : List Parameter} {tool : ToolDefinition}
    (made : MadeFrom path parameters tool) {p : Parameter} (member : p ∈ parameters)
    (special : p.name.any needsEscape = true) : ∃ q ∈ parameters, q.name = escape p.name := by
  obtain ⟨own,body,binds,_,all⟩ := made.bindings
  obtain ⟨b,bound,pointer,_,_⟩ := exists_right binds member
  have declared := tool.accepted.2.2.2.2
  rw [ToolDefinition.bindingsDeclared,List.all_eq_true] at declared
  have root := of_decide_eq_true (declared b (by simp [all,bound]))
  rw [pointer,bindingRoot_escape] at root
  rcases made.declared _ root with named | isBody
  · obtain ⟨q,inside,same⟩ := List.mem_map.mp named
    exact ⟨q,inside,same⟩
  · have again := (escape_special special).2
    rw [isBody] at again
    exact absurd again (by decide)

/-- A parameter whose name needs escaping is never converted: its binding would
read an argument the schema declares under another spelling. -/
theorem MadeFrom.plain_names {path : Str} {parameters : List Parameter} {tool : ToolDefinition}
    (made : MadeFrom path parameters tool) : ∀ p ∈ parameters, p.name.any needsEscape = false := by
  have plain := @plain_of_escaped (parameters.map Parameter.name) (by
    intro name member special
    obtain ⟨p,inside,rfl⟩ := List.mem_map.mp member
    obtain ⟨q,found,same⟩ := made.escaped_name inside special
    exact List.mem_map.mpr ⟨q,found,same⟩)
  exact fun p member => plain p.name (List.mem_map.mpr ⟨p,member,rfl⟩)

omit [Pydantic] in
/-- The arguments of an operation are all declared as the tool model reads them exactly when no
parameter's name needs escaping. -/
theorem argumentsOf_declared_iff {path : Str} {pathItem operation : Dict} {table : ArgumentTable} {jsonBody : Bool}
    {parameters : List Parameter} (made : argumentsOf path pathItem operation = .ok (table,jsonBody))
    (collected : collectParameters pathItem operation = .ok parameters) :
    ToolDefinition.bindingsDeclared (inputSchemaOf table) table.bindings = true ↔
      ∀ p ∈ parameters, p.name.any needsEscape = false := by
  unfold argumentsOf at made
  obtain ⟨found,same,made⟩ := bind_eq_ok.mp made
  rw [collected] at same
  cases same
  obtain ⟨_,_,made⟩ := bind_eq_ok.mp made
  obtain ⟨start,added,made⟩ := bind_eq_ok.mp made
  obtain ⟨own,binds,grown,names⟩ := addParameters_eq_ok added
  obtain ⟨body,all,rooted,kept⟩ := convertRequestBody_rooted made
  obtain ⟨_,only_⟩ := convertRequestBody_eq_ok made
  have named : Assoc.keys start.properties = parameters.map Parameter.name := names
  rw [List.nil_append] at grown
  rw [ToolDefinition.bindingsDeclared,declaredNames_inputSchemaOf,List.all_eq_true,all,grown]
  constructor
  · intro declared
    have plain := @plain_of_escaped (parameters.map Parameter.name) (by
      intro name member special
      obtain ⟨p,inside,rfl⟩ := List.mem_map.mp member
      obtain ⟨b,bound,pointer,_,_⟩ := exists_right binds inside
      have root := of_decide_eq_true (declared b (List.mem_append_left _ bound))
      rw [pointer,bindingRoot_escape] at root
      rcases only_ _ root with declared | isBody
      · exact named ▸ declared
      · have again := (escape_special special).2
        rw [isBody] at again
        exact absurd again (by decide))
    exact fun p member => plain p.name (List.mem_map.mpr ⟨p,member,rfl⟩)
  · intro plain b member
    rw [decide_eq_true_iff]
    rcases List.mem_append.mp member with parameter | field
    · obtain ⟨p,inside,pointer,_,_⟩ := exists_left binds parameter
      rw [pointer,bindingRoot_escape,escape_plain (plain p inside)]
      exact kept (named ▸ List.mem_map.mpr ⟨p,inside,rfl⟩)
    · exact rooted b field

end ToolLayer.OpenApi
