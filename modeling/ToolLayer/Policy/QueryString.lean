import ToolLayer.Contracts.ContractSchemas
import ToolLayer.Policy.Arguments
import ToolLayer.Python.FormData

/-! What the upstream reads in the URL of a prepared request: the path up to the first
question mark, and behind it the query arguments as they were supplied. -/
namespace ToolLayer.Policy
open Python Kit Kit.Result

/-- What the arguments as they were given hold for a binding. -/
def supplied (arguments : Dict) (binding : ArgumentBinding) : Option Value :=
  (taken (Objects.start arguments) binding).map Held.shown

/-- The bindings with one target and their arguments, in the order of the bindings. -/
def suppliedTo (target : BindingTarget) (arguments : Dict) (bindings : List ArgumentBinding) :
    List (ArgumentBinding × Value) :=
  bindings.filterMap (fun b => if b.target = target then (supplied arguments b).map (Prod.mk b) else none)

/-- The objects after a binding had its turn. -/
def wrote (objects : Objects) (b : ArgumentBinding) : Objects :=
  match b.target,taken objects b with
  | .body,some held =>
    match writePointer objects b.targetName held with
    | .ok next => next
    | .error _ => objects
  | _,_ => objects

/-- The bindings with one target and what they read when it was their turn. -/
def takenTo (target : BindingTarget) : Objects → List ArgumentBinding → List (ArgumentBinding × Value)
  | _,[] => []
  | objects,b::rest =>
    (if b.target = target then ((taken objects b).map (fun held => (b,held.shown))).toList else []) ++
      takenTo target (wrote objects b) rest

/-- The text a query binding would send. -/
def queryText (objects : Objects) (b : ArgumentBinding) : Option (Except PyExc Str) :=
  (taken objects b).map (fun held => scalarText held.shown b.argumentPointer)

/-- Every query binding reads, when it is its turn, what the arguments were given with. -/
def Undisturbed (arguments : Dict) (objects : Objects) (bindings : List ArgumentBinding) : Prop :=
  ∀ front b back, bindings = front ++ b::back → b.target = .query →
    queryText (front.foldl wrote objects) b = queryText (Objects.start arguments) b

/-- A query parameter as the tool names it and as its value is rendered. -/
def renderedQuery (argument : ArgumentBinding × Value) : Except PyExc (Str × Str) := do
  let text ← scalarText argument.2 argument.1.argumentPointer
  return (argument.1.targetName,text)

/-- The placeholder of a path argument gives way to the quoted value. -/
def substitute (path : Str) (argument : ArgumentBinding × Value) : Except PyExc Str := do
  let text ← scalarText argument.2 argument.1.argumentPointer
  let encoded ← Url.quote text
  return Str.replace path (placeholder argument.1.targetName) encoded

/-- The request's URL names its path under the base URL, and its query reads as the query
arguments that were supplied. -/
structure Delivers (operation : ToolOperation) (arguments : Dict) (baseUrl : Str) (request : PreparedRequest) : Prop where
  substituted : loop substitute operation.pathTemplate (takenTo .path (Objects.start arguments) operation.bindings) =
    .ok request.path
  front : (Str.partition '?' request.url).1 = Str.rstrip (fun c => c == CodePoint.ofChar '/') baseUrl ++ request.path
  noFragment : CodePoint.ofChar '#' ∉ request.url
  exists_query : ∃ pairs, each renderedQuery (suppliedTo .query arguments operation.bindings) = .ok pairs ∧
    Url.parseQsl (Str.partition '?' request.url).2.2 = pairs ∧ ((Str.partition '?' request.url).2.1 = true ↔ pairs ≠ [])

section Bindings

theorem suppliedTo_cons (target : BindingTarget) (arguments : Dict) (b : ArgumentBinding) (rest : List ArgumentBinding) :
    suppliedTo target arguments (b::rest) =
      (if b.target = target then ((supplied arguments b).map (Prod.mk b)).toList else []) ++ suppliedTo target arguments rest := by
  by_cases same : b.target = target
  · cases found : supplied arguments b with
    | none => simp [suppliedTo,same,found]
    | some value => simp [suppliedTo,same,found]
  · simp [suppliedTo,same]

/-- The objects after a placed argument are those of its turn. -/
theorem placeArgument_wrote {draft next : Draft} {b : ArgumentBinding} (placed : placeArgument draft b = .ok next) :
    next.objects = wrote draft.objects b := by
  unfold wrote
  split
  next held target found =>
    rw [placeArgument_some found,target] at placed
    obtain ⟨objects,written,placed⟩ := bind_eq_ok.mp placed
    cases placed
    rw [written]
  next other =>
    by_cases body : b.target = .body
    · cases found : taken draft.objects b with
      | none =>
        cases (placeArgument_none found).symm.trans placed
        rfl
      | some held => exact absurd found (other held body)
    · exact placeArgument_objects body placed

/-- One binding adds what it reads to the query or to the path, or to neither. -/
theorem placeArgument_taken {draft next : Draft} {b : ArgumentBinding} (placed : placeArgument draft b = .ok next) :
    (∃ pairs, each renderedQuery (takenTo .query draft.objects [b]) = .ok pairs ∧ next.query = draft.query ++ pairs) ∧
      loop substitute draft.path (takenTo .path draft.objects [b]) = .ok next.path := by
  simp only [takenTo,List.append_nil]
  cases found : taken draft.objects b with
  | none =>
    cases (placeArgument_none found).symm.trans placed
    exact ⟨⟨[],by simp,by simp⟩,by simp⟩
  | some held =>
    rw [placeArgument_some found] at placed
    cases target : b.target with
    | path =>
      rw [target] at placed
      obtain ⟨_,placed⟩ := refuse_bind_eq_ok.mp placed
      obtain ⟨text,scalar,placed⟩ := bind_eq_ok.mp placed
      obtain ⟨encoded,quoted,placed⟩ := bind_eq_ok.mp placed
      cases placed
      refine ⟨⟨[],by simp,by simp⟩,?_⟩
      have replaced : substitute draft.path (b,held.shown) =
          .ok (Str.replace draft.path (placeholder b.targetName) encoded) := by
        rw [substitute,scalar,ok_bind,quoted]
        rfl
      simp [loop,replaced]
    | query =>
      rw [target] at placed
      obtain ⟨text,scalar,placed⟩ := bind_eq_ok.mp placed
      cases placed
      have rendered : renderedQuery (b,held.shown) = .ok (b.targetName,text) := by
        rw [renderedQuery,scalar]
        rfl
      exact ⟨⟨[(b.targetName,text)],by simp [each,rendered],rfl⟩,by simp⟩
    | header =>
      rw [target] at placed
      obtain ⟨text,_,placed⟩ := bind_eq_ok.mp placed
      cases placed
      exact ⟨⟨[],by simp,by simp⟩,by simp⟩
    | body =>
      rw [target] at placed
      obtain ⟨body,_,placed⟩ := bind_eq_ok.mp placed
      cases placed
      exact ⟨⟨[],by simp,by simp⟩,by simp⟩

/-- What the loop over the bindings collects. -/
theorem loop_placeArgument {bindings : List ArgumentBinding} {draft next : Draft}
    (placed : loop placeArgument draft bindings = .ok next) :
    (∃ pairs, each renderedQuery (takenTo .query draft.objects bindings) = .ok pairs ∧ next.query = draft.query ++ pairs) ∧
      loop substitute draft.path (takenTo .path draft.objects bindings) = .ok next.path := by
  induction bindings generalizing draft with
  | nil =>
    cases placed
    exact ⟨⟨[],rfl,by simp⟩,rfl⟩
  | cons b rest ih =>
    obtain ⟨between,first,later⟩ := loop_cons_eq_ok.mp placed
    obtain ⟨⟨some_,rendered,grown⟩,path⟩ := placeArgument_taken first
    obtain ⟨⟨more,others,all⟩,final⟩ := ih later
    rw [placeArgument_wrote first] at others final
    have split_ : ∀ target, takenTo target draft.objects (b::rest) =
        takenTo target draft.objects [b] ++ takenTo target (wrote draft.objects b) rest := by
      intro target
      simp only [takenTo,List.append_nil]
    rw [split_,split_]
    refine ⟨⟨some_ ++ more,each_eq_ok.mpr ?_,by rw [all,grown,List.append_assoc]⟩,loop_append_eq_ok.mpr ⟨_,path,final⟩⟩
    exact List.rel_append (each_eq_ok.mp rendered) (each_eq_ok.mp others)

end Bindings

section Turns

theorem undisturbed_cons {arguments : Dict} {objects : Objects} {b : ArgumentBinding} {rest : List ArgumentBinding} :
    Undisturbed arguments objects (b::rest) ↔
      (b.target = .query → queryText objects b = queryText (Objects.start arguments) b) ∧
        Undisturbed arguments (wrote objects b) rest := by
  constructor
  · intro all
    refine ⟨all [] b rest rfl,fun front c back same query => ?_⟩
    exact all (b::front) c back (by rw [same]; rfl) query
  · rintro ⟨first,later⟩ front c back same query
    cases front with
    | nil =>
      obtain ⟨rfl,rfl⟩ := List.cons.inj same
      exact first query
    | cons d front =>
      obtain ⟨rfl,rfl⟩ := List.cons.inj same
      exact later front c back rfl query

/-- A query argument adds its one pair, and an absent one adds none. -/
theorem each_renderedQuery {b : ArgumentBinding} {value : Option Value} {rest : List (ArgumentBinding × Value)}
    {pairs : List (Str × Str)} : each renderedQuery ((value.map (Prod.mk b)).toList ++ rest) = .ok pairs ↔
      (value.map (fun v => scalarText v b.argumentPointer) = none ∧ each renderedQuery rest = .ok pairs) ∨
      ∃ text more, value.map (fun v => scalarText v b.argumentPointer) = some (.ok text) ∧
        pairs = (b.targetName,text)::more ∧ each renderedQuery rest = .ok more := by
  cases value with
  | none => simp
  | some v =>
    have rendered : ∀ pair, renderedQuery (b,v) = .ok pair ↔ ∃ text, scalarText v b.argumentPointer = .ok text ∧
        pair = (b.targetName,text) := by
      intro pair
      rw [renderedQuery]
      constructor
      · intro done
        obtain ⟨text,scalar,done⟩ := bind_eq_ok.mp done
        cases done
        exact ⟨text,scalar,rfl⟩
      · rintro ⟨text,scalar,rfl⟩
        rw [scalar]
        rfl
    simp only [Option.map_some,Option.toList_some,List.singleton_append,each_cons_eq_ok,rendered,reduceCtorEq,false_and,
      false_or,Option.some.injEq]
    constructor
    · rintro ⟨_,more,⟨text,scalar,rfl⟩,others,rfl⟩
      exact ⟨text,more,scalar,rfl,others⟩
    · rintro ⟨text,more,scalar,rfl,others⟩
      exact ⟨_,more,⟨text,scalar,rfl⟩,others,rfl⟩

theorem mem_rendered {arguments : List (ArgumentBinding × Value)} {pairs : List (Str × Str)}
    (rendered : each renderedQuery arguments = .ok pairs) {pair : Str × Str} (member : pair ∈ pairs) :
    ∃ a ∈ arguments, a.1.targetName = pair.1 := by
  obtain ⟨a,inside,done⟩ := exists_left (each_eq_ok.mp rendered) member
  obtain ⟨text,_,done⟩ := bind_eq_ok.mp done
  cases done
  exact ⟨a,inside,rfl⟩

theorem mem_suppliedTo {target : BindingTarget} {arguments : Dict} {bindings : List ArgumentBinding}
    {a : ArgumentBinding × Value} (member : a ∈ suppliedTo target arguments bindings) : a.1 ∈ bindings ∧ a.1.target = target := by
  obtain ⟨b,inside,found⟩ := List.mem_filterMap.mp member
  split at found
  next same =>
    obtain ⟨_,_,rfl⟩ := Option.map_eq_some_iff.mp found
    exact ⟨inside,same⟩
  next => cases found

theorem mem_takenTo {target : BindingTarget} {objects : Objects} {bindings : List ArgumentBinding}
    {a : ArgumentBinding × Value} (member : a ∈ takenTo target objects bindings) : a.1 ∈ bindings ∧ a.1.target = target := by
  induction bindings generalizing objects with
  | nil => cases member
  | cons b rest ih =>
    rw [takenTo] at member
    rcases List.mem_append.mp member with first | later
    · split at first
      next same =>
        obtain ⟨held,_,rfl⟩ := Option.map_eq_some_iff.mp (Option.mem_toList.mp first)
        exact ⟨List.mem_cons_self,same⟩
      next => cases first
    · exact (ih later).imp_left (List.mem_cons_of_mem b)

/-- The pairs of the turns are those of the supplied arguments exactly when no turn was disturbed,
as no two query bindings share a name. -/
theorem rendered_iff {arguments : Dict} {bindings : List ArgumentBinding}
    (distinct : (ToolOperation.locations bindings).Nodup) {objects : Objects} {pairs : List (Str × Str)}
    (rendered : each renderedQuery (takenTo .query objects bindings) = .ok pairs) :
    each renderedQuery (suppliedTo .query arguments bindings) = .ok pairs ↔ Undisturbed arguments objects bindings := by
  induction bindings generalizing objects pairs with
  | nil =>
    cases rendered
    refine ⟨fun _ front b back same => ?_,fun _ => rfl⟩
    cases front <;> cases same
  | cons b rest ih =>
    obtain ⟨fresh,distinct⟩ := List.nodup_cons.mp distinct
    rw [undisturbed_cons,suppliedTo_cons]
    rw [takenTo] at rendered
    by_cases query : b.target = .query
    · rw [if_pos query] at rendered ⊢
      have names : ∀ a : List (ArgumentBinding × Value), (∀ p ∈ a, p.1 ∈ rest ∧ p.1.target = .query) →
          ∀ text more, each renderedQuery a ≠ .ok ((b.targetName,text)::more) := by
        intro a known text more done
        obtain ⟨p,inside,name⟩ := mem_rendered done List.mem_cons_self
        obtain ⟨later,target⟩ := known p inside
        exact fresh (List.mem_map.mpr ⟨p.1,later,Prod.ext (target.trans query.symm) name⟩)
      have read : (taken objects b).map (fun held => (b,held.shown)) = ((taken objects b).map Held.shown).map (Prod.mk b) := by
        rw [Option.map_map]
        rfl
      have textNow : ((taken objects b).map Held.shown).map (fun v => scalarText v b.argumentPointer) = queryText objects b := by
        rw [Option.map_map]
        rfl
      have textGiven : (supplied arguments b).map (fun v => scalarText v b.argumentPointer) =
          queryText (Objects.start arguments) b := by
        rw [supplied,Option.map_map]
        rfl
      rw [read,each_renderedQuery,textNow] at rendered
      rw [each_renderedQuery,textGiven]
      rcases rendered with ⟨now,tail⟩ | ⟨text,more,now,rfl,tail⟩
      · rw [← ih distinct tail,now]
        constructor
        · rintro (⟨given,others⟩ | ⟨text,more,_,rfl,_⟩)
          · exact ⟨fun _ => given.symm,others⟩
          · exact absurd tail (names _ (fun p inside => mem_takenTo inside) text more)
        · rintro ⟨same,others⟩
          exact Or.inl ⟨(same query).symm,others⟩
      · rw [← ih distinct tail,now]
        constructor
        · rintro (⟨_,others⟩ | ⟨text',more',given,same,others⟩)
          · exact absurd others (names _ (fun p inside => mem_suppliedTo inside) text more)
          · obtain ⟨first,rfl⟩ := List.cons.inj same
            rw [given,(Prod.mk.inj first).2]
            exact ⟨fun _ => rfl,others⟩
        · rintro ⟨same,others⟩
          exact Or.inr ⟨text,more,(same query).symm,rfl,others⟩
    · rw [if_neg query,List.nil_append] at rendered ⊢
      rw [ih distinct rendered]
      exact ⟨fun tail => ⟨fun is => absurd is query,tail⟩,And.right⟩

end Turns

section Delimiters

/-- Neither a question mark nor a number sign. -/
def undelimited (c : CodePoint) : Prop := c ≠ '?' ∧ c ≠ '#'

instance (c : CodePoint) : Decidable (undelimited c) := inferInstanceAs (Decidable (_ ∧ _))

theorem undelimited_quoted {c d : CodePoint} (member : d ∈ Url.quotePoint c) : undelimited d := by
  rcases Url.quotePoint_alphabet member with kept | rfl
  · constructor
    all_goals
      rintro rfl
      exact absurd kept (by decide)
  · exact ⟨by decide,by decide⟩

/-- Quoted values bring no delimiter into the path. -/
theorem undelimited_substitute {path next : Str} {argument : ArgumentBinding × Value}
    (clean : ∀ c ∈ path, undelimited c) (done : substitute path argument = .ok next) : ∀ c ∈ next, undelimited c := by
  obtain ⟨text,_,done⟩ := bind_eq_ok.mp done
  obtain ⟨encoded,quoted,done⟩ := bind_eq_ok.mp done
  cases done
  obtain ⟨_,rfl⟩ := Url.quote_eq_ok.mp quoted
  intro c member
  rcases Str.mem_of_mem_replaceFrom path 0 member with old | new
  · exact clean c old
  · obtain ⟨_,_,written⟩ := List.mem_flatMap.mp new
    exact undelimited_quoted written

theorem undelimited_template {template : Str} (matched : Patterns.pathTemplate Patterns.whiteSpace template = true) :
    ∀ c ∈ template, undelimited c := by
  unfold Patterns.pathTemplate at matched
  split at matched
  next d rest =>
    simp only [Bool.and_eq_true,beq_iff_eq,List.all_eq_true,bne_iff_ne] at matched
    obtain ⟨⟨rfl,_⟩,all⟩ := matched
    rw [List.forall_mem_cons]
    exact ⟨⟨by decide,by decide⟩,fun c member => (all c member).1⟩
  next => cases matched

theorem undelimited_baseUrl {s : Str} (matched : Patterns.beforeFinalNewline Patterns.baseUrl s = true) :
    ∀ c ∈ s, undelimited c := by
  have tagged : ∀ tag t : Str, tag.all (fun c => decide (undelimited c)) = true →
      Patterns.tagged tag Patterns.originRest t = true → ∀ c ∈ t, undelimited c := by
    intro tag t clean matched c member
    rw [Patterns.tagged,Bool.and_eq_true,List.isPrefixOf_iff_prefix] at matched
    obtain ⟨⟨rest,rfl⟩,origin⟩ := matched
    rw [List.drop_left,Patterns.originRest,Bool.and_eq_true,Bool.and_eq_true,List.all_eq_true] at origin
    rcases List.mem_append.mp member with early | late
    · exact of_decide_eq_true (List.all_eq_true.mp clean c early)
    · simpa [undelimited] using origin.1.2 c late
  have exact_ : ∀ t : Str, Patterns.baseUrl t = true → ∀ c ∈ t, undelimited c := by
    intro t matched
    rcases Bool.or_eq_true_iff.mp matched with plain | secure
    · exact tagged _ t (by decide) plain
    · exact tagged _ t (by decide) secure
  simp only [Patterns.beforeFinalNewline,Bool.or_eq_true,Bool.and_eq_true,beq_iff_eq] at matched
  rcases matched with whole | ⟨last,front⟩
  · exact exact_ s whole
  · rw [← List.dropLast_append_getLast? _ (Option.mem_def.mpr last)]
    intro c member
    rcases List.mem_append.mp member with early | late
    · exact exact_ _ front c early
    · rw [List.mem_singleton.mp late]
      exact ⟨by decide,by decide⟩

end Delimiters

section Requests

variable [Pydantic]

/-- The URL of a prepared request as its reader takes it apart. -/
theorem url_read {tool : ToolDefinition} {arguments : Dict} {baseUrl : Str} {request : PreparedRequest}
    (accepted : Patterns.beforeFinalNewline Patterns.baseUrl baseUrl = true)
    (prepared : prepareRequest tool arguments baseUrl = .ok request) :
    loop substitute tool.operation.pathTemplate (takenTo .path (Objects.start arguments) tool.operation.bindings) =
      .ok request.path ∧
    (Str.partition '?' request.url).1 = Str.rstrip (fun c => c == CodePoint.ofChar '/') baseUrl ++ request.path ∧
    CodePoint.ofChar '#' ∉ request.url ∧
    ∃ pairs, each renderedQuery (takenTo .query (Objects.start arguments) tool.operation.bindings) = .ok pairs ∧
      Url.parseQsl (Str.partition '?' request.url).2.2 = pairs ∧
      ((Str.partition '?' request.url).2.1 = true ↔ pairs ≠ []) := by
  unfold prepareRequest at prepared
  obtain ⟨draft,placed,prepared⟩ := bind_eq_ok.mp prepared
  obtain ⟨_,prepared⟩ := refuse_bind_eq_ok.mp prepared
  obtain ⟨⟨body,contentType⟩,_,prepared⟩ := bind_eq_ok.mp prepared
  obtain ⟨url,located,prepared⟩ := bind_eq_ok.mp prepared
  cases prepared
  obtain ⟨⟨pairs,rendered,query⟩,path⟩ := loop_placeArgument placed
  rw [List.nil_append] at query
  have template := undelimited_template (Bool.and_eq_true_iff.mp tool.operation.accepted.1).2
  have clean : ∀ c ∈ draft.path, undelimited c :=
    loop_keeps (fun path => ∀ c ∈ path, undelimited c) (fun _ _ _ _ before done => undelimited_substitute before done)
      template path
  have front : ∀ c ∈ Str.rstrip (fun c => c == CodePoint.ofChar '/') baseUrl ++ draft.path, undelimited c := by
    intro c member
    rcases List.mem_append.mp member with base | inPath
    · refine undelimited_baseUrl accepted c ?_
      rw [Str.rstrip,List.mem_reverse] at base
      exact List.mem_reverse.mp ((List.dropWhile_sublist _).subset base)
    · exact clean c inPath
  have noMark : CodePoint.ofChar '?' ∉ Str.rstrip (fun c => c == CodePoint.ofChar '/') baseUrl ++ draft.path :=
    fun member => (front _ member).1 rfl
  unfold requestUrl at located
  dsimp only at located
  rw [query] at located
  split at located
  next none_ =>
    cases located
    have empty : pairs = [] := List.isEmpty_iff.mp none_
    have split_ := Str.partition_absent noMark
    refine ⟨path,?_,fun member => (front _ member).2 rfl,pairs,rendered,?_,?_⟩
    · rw [split_]
    · rw [split_,empty]
      rfl
    · rw [split_]
      simp [empty]
  next some_ =>
    obtain ⟨encoded,written,located⟩ := bind_eq_ok.mp located
    cases located
    have split_ := Str.partition_append noMark encoded
    refine ⟨path,?_,?_,pairs,rendered,?_,?_⟩
    · rw [split_]
    · intro member
      rcases List.mem_append.mp member with early | late
      · exact (front _ early).2 rfl
      · rcases List.mem_cons.mp late with same | inQuery
        · exact absurd same (by decide)
        · exact Url.urlencode_plain written inQuery
    · rw [split_]
      exact Url.parseQsl_urlencode written
    · rw [split_]
      simpa using some_

/-- Query arguments arrive as they were supplied, behind a path they cannot end, unless the body
was written into one of them first. -/
theorem query_delivered {tool : ToolDefinition} {arguments : Dict} {baseUrl : Str} {request : PreparedRequest}
    (accepted : Patterns.beforeFinalNewline Patterns.baseUrl baseUrl = true)
    (prepared : prepareRequest tool arguments baseUrl = .ok request) :
    Delivers tool.operation arguments baseUrl request ↔
      Undisturbed arguments (Objects.start arguments) tool.operation.bindings := by
  obtain ⟨path,front,noFragment,pairs,rendered,reads,marked⟩ := url_read accepted prepared
  rw [← rendered_iff tool.operation.accepted.2.1 rendered]
  constructor
  · rintro ⟨_,_,_,pairs',supplied,same,_⟩
    rw [supplied,← same,reads]
  · exact fun supplied => ⟨path,front,noFragment,pairs,supplied,reads,marked⟩

end Requests

section Search

local instance searchPydantic : Pydantic := Pydantic.exact

def searchTool : ToolDefinition where
  toolName := "search_notes"
  displayName := "Search notes"
  description := "Search the notes of a ticket."
  inputSchema := [("$schema",.str ToolDefinition.dialect),("type",.str "object"),
    ("properties",.dict [("ticket",.dict [("type",.str "string")]),("q",.dict [("type",.str "string")]),
      ("tag",.dict [("type",.str "string")])]),
    ("required",.list []),("additionalProperties",.bool false)]
  operation := ⟨.get,"/tickets/\x7bticket\x7d",[⟨"/ticket",.path,"ticket",by decide +kernel⟩,
    ⟨"/q",.query,"q",by decide +kernel⟩,⟨"/tag",.query,"tag",by decide +kernel⟩],false,by decide +kernel⟩
  policy := ⟨.read,false,.unrestricted⟩
  provenance := ⟨none,"/tickets/\x7bticket\x7d",.get,[],false,.source,by decide +kernel⟩
  accepted := by decide +kernel

/-- A value full of delimiters, and a blank one. -/
def searchArguments : Dict := [("ticket",.str "a?b#c"),("q",.str "x&tag=y+z#50%"),("tag",.str "")]

theorem search_prepared : okWith (fun request => request.url ==
    Str.lit "http://desk.test/tickets/a%3Fb%23c?q=x%26tag%3Dy%2Bz%2350%25&tag=")
    (prepareRequest searchTool searchArguments "http://desk.test/") = true := by
  decide +kernel

theorem query_delivered_search : ∃ request, prepareRequest searchTool searchArguments "http://desk.test/" = .ok request ∧
    (Delivers searchTool.operation searchArguments "http://desk.test/" request ↔
      Undisturbed searchArguments (Objects.start searchArguments) searchTool.operation.bindings) := by
  obtain ⟨request,prepared,_⟩ := exists_of_okWith search_prepared
  exact ⟨request,prepared,query_delivered (by decide) prepared⟩

/-- A tool that puts a value into an object it has put into the body. -/
def shareTool : ToolDefinition where
  toolName := "share_note"
  displayName := "Share note"
  description := "Share a note."
  inputSchema := [("$schema",.str ToolDefinition.dialect),("type",.str "object"),
    ("properties",.dict [("note",.dict [("type",.str "object")]),("title",.dict [("type",.str "string")])]),
    ("required",.list []),("additionalProperties",.bool false)]
  operation := ⟨.post,"/notes",[⟨"/note",.body,"/shared",by decide +kernel⟩,⟨"/title",.body,"/shared/title",by decide +kernel⟩,
    ⟨"/note/title",.query,"title",by decide +kernel⟩],true,by decide +kernel⟩
  policy := ⟨.write,true,.unrestricted⟩
  provenance := ⟨none,"/notes",.post,[],false,.source,by decide +kernel⟩
  accepted := by decide +kernel

def shareArguments : Dict := [("note",.dict [("title",.str "old")]),("title",.str "new")]

theorem share_prepared : okWith (fun request => request.url == Str.lit "http://desk.test/notes?title=new")
    (prepareRequest shareTool shareArguments "http://desk.test") = true := by
  decide +kernel

/-- The title that is supplied is not the one that is sent. -/
theorem query_overwritten : ∃ request, prepareRequest shareTool shareArguments "http://desk.test" = .ok request ∧
    ¬ Delivers shareTool.operation shareArguments "http://desk.test" request := by
  obtain ⟨request,prepared,sent⟩ := exists_of_okWith share_prepared
  refine ⟨request,prepared,fun delivers => ?_⟩
  obtain ⟨pairs,supplied,read,_⟩ := delivers.exists_query
  have given : each renderedQuery (suppliedTo .query shareArguments shareTool.operation.bindings) =
      .ok [(Str.lit "title",Str.lit "old")] := by rfl
  rw [beq_iff_eq.mp sent] at read
  have same := read.trans (Except.ok.inj (supplied.symm.trans given))
  exact absurd same (by decide +kernel)

end Search

end ToolLayer.Policy
