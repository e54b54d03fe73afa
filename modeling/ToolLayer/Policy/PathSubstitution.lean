import ToolLayer.OpenApi.Placeholders
import ToolLayer.Policy.Arguments

/-! Filling a path one placeholder after another comes to filling all of them at once: an encoded
value has no brace, so no value is taken for a placeholder and none is filled twice. -/
namespace Python.Str

theorem contains_iff {pattern s : Str} : contains pattern s = true ↔ pattern <:+: s := by
  induction s with
  | nil => simp [contains]
  | cons c rest ih => rw [contains,Bool.or_eq_true,ih,List.isPrefixOf_iff_prefix,List.infix_cons_iff]

end Python.Str

namespace ToolLayer.Policy
open Python Kit Kit.Result OpenApi

def readPieces (text : Str) : List PathPiece :=
  Template.read CodePoint.openingBrace CodePoint.closingBrace none text

theorem readPieces_sourceOf {segment : List PathPiece} (clean : ∀ p ∈ segment, CleanPiece p) :
    readPieces (sourceOf segment) = segment := Template.read_source _ _ segment clean

/-- The text of a scalar, as it is before it is encoded. -/
def textOf (value : Value) : Str :=
  match scalarText value [] with
  | .ok text => text
  | .error _ => []

/-- A value as it stands in the URL. -/
def encodedOf (value : Value) : Str := (textOf value).flatMap Url.quotePoint

/-- The template with all its placeholders replaced at once. -/
def filledPath (template : Str) (value : Str → Value) : Str :=
  Template.expand (fun name => encodedOf (value name)) (readPieces template)

def outsidePlaceholders (template : Str) : Str := Template.expand (fun _ => []) (readPieces template)

/-- The draft before the first binding. -/
def blankDraft [Pydantic] (tool : ToolDefinition) (arguments : Dict) : Draft :=
  ⟨tool.operation.pathTemplate,[],[],Objects.start arguments,false⟩

/-- What a path binding reads when its turn comes is the value of its placeholder. -/
def Assigned [Pydantic] (tool : ToolDefinition) (arguments : Dict) (value : Str → Value) : Prop :=
  ∀ before b after draft held, tool.operation.bindings = before ++ b :: after → b.target = .path →
    loop placeArgument (blankDraft tool arguments) before = .ok draft → taken draft.objects b = some held →
      held.shown = value b.targetName

/-- Every binding fills a placeholder, and every placeholder has one, with a value that has a URL text. -/
structure Filling [Pydantic] (tool : ToolDefinition) (parameters : List Parameter) (arguments : Dict) (value : Str → Value) :
    Prop where
  only : ∀ b ∈ tool.operation.bindings, b.target = .path
  every : ∀ p ∈ parameters, p.location = .path → ∃ b ∈ tool.operation.bindings, b.targetName = p.name
  reads : ∀ b ∈ tool.operation.bindings,
    readPointer (Objects.start arguments) b.argumentPointer = some (.plain (value b.targetName))
  text : ∀ b ∈ tool.operation.bindings, ∃ text, scalarText (value b.targetName) [] = .ok text ∧ text.scalar = true

theorem scalarText_pointer {value : Value} {pointer text : Str} (scalar : scalarText value pointer = .ok text)
    (other : Str) : scalarText value other = .ok text := by
  cases value <;> first | exact scalar | cases scalar

theorem unreserved_of_mem_encodedOf {value : Value} {c : CodePoint} (member : c ∈ encodedOf value) :
    Url.unreserved c = true ∨ c = '%' := by
  obtain ⟨d,_,written⟩ := List.mem_flatMap.mp member
  exact Url.quotePoint_alphabet written

theorem not_mem_encodedOf {value : Value} {c : CodePoint} (reserved : Url.unreserved c = false) (other : c ≠ '%') :
    c ∉ encodedOf value := by
  intro member
  rcases unreserved_of_mem_encodedOf member with kept | percent
  · exact Bool.false_ne_true (reserved.symm.trans kept)
  · exact other percent

/-- Replacing one placeholder in a partly filled template fills that hole. -/
theorem replace_expand (value : Str → Str) (pieces : List PathPiece) (name new : Str)
    (clean : ∀ p ∈ pieces, CleanPiece p) (nameClean : CodePoint.closingBrace ∉ name)
    (filled : ∀ m, value m = placeholder m ∨ CodePoint.openingBrace ∉ value m) :
    Str.replace (Template.expand value pieces) (placeholder name) new =
      Template.expand (fun m => if m = name ∧ value m = placeholder m then new else value m) pieces := by
  induction pieces with
  | nil => rfl
  | cons piece rest ih =>
    have tail := ih (fun p member => clean p (by simp [member]))
    have first := clean piece (by simp)
    rw [Template.expand_cons,Template.expand_cons,← tail]
    cases piece with
    | literal c =>
      exact Str.replace_append_clean _ _ new [c] _ (by simpa using Ne.symm first.1)
    | hole m =>
      simp only [Template.fill]
      rcases filled m with empty | full
      · by_cases same : m = name
        · subst same
          rw [if_pos ⟨rfl,empty⟩,empty]
          exact Str.replace_match _ _ new _
        · rw [if_neg (fun both => same both.1),empty]
          have mismatch : ¬ placeholder name <+: placeholder m ++ Template.expand value rest := fun starts =>
            same (Template.name_of_mark_prefix _ _ nameClean first.2 starts).symm
          refine (Str.replace_mismatch (placeholder name) new CodePoint.openingBrace
            ((m ++ [CodePoint.closingBrace]) ++ Template.expand value rest) mismatch).trans ?_
          refine congrArg (CodePoint.openingBrace :: ·) ?_
          refine Str.replace_append_clean _ _ new (m ++ [CodePoint.closingBrace]) _ ?_
          have open_ne_close : CodePoint.openingBrace ≠ CodePoint.closingBrace := by decide
          simp [first.1,open_ne_close]
      · have unfilled : value m ≠ placeholder m := by
          intro same
          rw [same] at full
          exact full (by simp [placeholder])
        rw [if_neg (fun both => unfilled both.2)]
        exact Str.replace_append_clean _ _ new (value m) _ full

/-- What stands for a placeholder when those in `done` are filled. -/
def partly (value : Str → Value) (done : List Str) (name : Str) : Str :=
  if name ∈ done then encodedOf (value name) else placeholder name

section Filling

variable {value : Str → Value} {pieces : List PathPiece} {done : List Str}

theorem partly_shape (value : Str → Value) (done : List Str) (name : Str) :
    partly value done name = placeholder name ∨ CodePoint.openingBrace ∉ partly value done name := by
  unfold partly
  split
  · exact Or.inr (not_mem_encodedOf (by decide) (by decide))
  · exact Or.inl rfl

/-- Filling one more hole. -/
theorem replace_partly (clean : ∀ p ∈ pieces, CleanPiece p) {name : Str} (nameClean : CodePoint.closingBrace ∉ name) :
    Str.replace (Template.expand (partly value done) pieces) (placeholder name) (encodedOf (value name)) =
      Template.expand (partly value (name::done)) pieces := by
  rw [replace_expand (partly value done) pieces _ _ clean nameClean (partly_shape value done)]
  refine Template.expand_congr (fun m _ => ?_)
  by_cases same : m = name
  · subst same
    by_cases earlier : m ∈ done
    · simp [partly,earlier]
    · simp [partly,earlier]
  · simp [partly,same]

theorem contains_partly {name : Str} (hole : name ∈ Template.holes pieces) (unfilled : name ∉ done) :
    Str.contains (placeholder name) (Template.expand (partly value done) pieces) = true := by
  obtain ⟨front,back,rfl⟩ := List.append_of_mem (Template.mem_holes.mp hole)
  refine Str.contains_iff.mpr ⟨Template.expand (partly value done) front,Template.expand (partly value done) back,?_⟩
  have here : Template.fill (partly value done) (.hole name) = placeholder name := if_neg unfilled
  rw [Template.expand,Template.expand,Template.expand,List.flatMap_append,List.flatMap_cons,here,List.append_assoc]

/-- When no brace is left, every placeholder is filled. -/
theorem expand_partly_filled (closed : (Template.expand (partly value done) pieces).any
      (fun c => c == CodePoint.openingBrace || c == CodePoint.closingBrace) = false) :
    Template.expand (partly value done) pieces = Template.expand (fun name => encodedOf (value name)) pieces := by
  refine Template.expand_congr (fun name member => ?_)
  unfold partly
  split
  next => rfl
  next unfilled =>
    have brace : CodePoint.openingBrace ∈ Template.expand (partly value done) pieces := by
      rw [Template.expand,List.mem_flatMap]
      exact ⟨_,Template.mem_holes.mp member,by simp [Template.fill,partly,unfilled,placeholder]⟩
    rw [List.any_eq_false] at closed
    exact absurd (closed _ brace) (by simp)

theorem placeInPath_eq_ok {draft next : Draft} {b : ArgumentBinding} {held : Held} :
    placeInPath draft b held = .ok next ↔ Str.contains (placeholder b.targetName) draft.path = true ∧
      ∃ text, scalarText held.shown b.argumentPointer = .ok text ∧ text.scalar = true ∧
        next = { draft with path := Str.replace draft.path (placeholder b.targetName) (text.flatMap Url.quotePoint) } := by
  rw [placeInPath,refuse_bind_eq_ok,Bool.not_eq_false']
  refine and_congr_right fun _ => ?_
  constructor
  · intro placed
    obtain ⟨text,scalar,placed⟩ := bind_eq_ok.mp placed
    obtain ⟨encoded,quoted,placed⟩ := bind_eq_ok.mp placed
    obtain ⟨readable,rfl⟩ := Url.quote_eq_ok.mp quoted
    cases placed
    exact ⟨text,scalar,readable,rfl⟩
  · rintro ⟨text,scalar,readable,rfl⟩
    exact bind_eq_ok.mpr ⟨text,scalar,bind_eq_ok.mpr ⟨_,Url.quote_eq_ok.mpr ⟨readable,rfl⟩,rfl⟩⟩

theorem encodedOf_eq {v : Value} {pointer text : Str} (scalar : scalarText v pointer = .ok text) :
    encodedOf v = text.flatMap Url.quotePoint := by
  rw [encodedOf,textOf,scalarText_pointer scalar []]

/-- One binding either leaves the path alone or fills the hole of its own name. -/
theorem placeArgument_fills {draft next : Draft} {b : ArgumentBinding} (clean : ∀ p ∈ pieces, CleanPiece p)
    (nameClean : b.target = .path → CodePoint.closingBrace ∉ b.targetName)
    (reads : b.target = .path → ∀ held, taken draft.objects b = some held → held.shown = value b.targetName)
    (path : draft.path = Template.expand (partly value done) pieces) (placed : placeArgument draft b = .ok next) :
    ∃ more, next.path = Template.expand (partly value more) pieces := by
  by_cases target : b.target = .path
  · cases found : taken draft.objects b with
    | none =>
      cases (placeArgument_none found).symm.trans placed
      exact ⟨done,path⟩
    | some held =>
      rw [placeArgument_some found,target] at placed
      obtain ⟨_,text,scalar,_,rfl⟩ := placeInPath_eq_ok.mp placed
      rw [reads target held found] at scalar
      refine ⟨b.targetName::done,?_⟩
      simp only [path]
      rw [← encodedOf_eq scalar]
      exact replace_partly clean (nameClean target)
  · exact ⟨done,(placeArgument_keeps_path target placed).trans path⟩

theorem placeArgument_of_reads {draft : Draft} {b : ArgumentBinding} {text : Str} (clean : ∀ p ∈ pieces, CleanPiece p)
    (target : b.target = .path) (reads : readPointer draft.objects b.argumentPointer = some (.plain (value b.targetName)))
    (scalar : scalarText (value b.targetName) [] = .ok text) (readable : text.scalar = true)
    (hole : b.targetName ∈ Template.holes pieces) (unfilled : b.targetName ∉ done)
    (path : draft.path = Template.expand (partly value done) pieces) :
    placeArgument draft b = .ok { draft with path := Template.expand (partly value (b.targetName::done)) pieces } := by
  have found : taken draft.objects b = some (.plain (value b.targetName)) := by
    unfold taken
    rw [reads]
    cases given : value b.targetName with
    | null =>
      rw [given] at scalar
      cases scalar
    | _ => rfl
  have nameClean := (clean _ (Template.mem_holes.mp hole)).2
  have written := scalarText_pointer scalar b.argumentPointer
  have there : Str.contains (placeholder b.targetName) draft.path = true := by
    rw [path]
    exact contains_partly hole unfilled
  rw [placeArgument_some found,target]
  refine placeInPath_eq_ok.mpr ⟨there,text,written,readable,?_⟩
  rw [path,← encodedOf_eq scalar,replace_partly clean nameClean]

/-- Bindings of different unfilled placeholders are placed one after another. -/
theorem loop_of_reads (draft : Draft) {bindings : List ArgumentBinding} (clean : ∀ p ∈ pieces, CleanPiece p)
    (only : ∀ b ∈ bindings, b.target = .path)
    (reads : ∀ b ∈ bindings, readPointer draft.objects b.argumentPointer = some (.plain (value b.targetName)))
    (texts : ∀ b ∈ bindings, ∃ text, scalarText (value b.targetName) [] = .ok text ∧ text.scalar = true)
    (holes : ∀ b ∈ bindings, b.targetName ∈ Template.holes pieces) (unfilled : ∀ b ∈ bindings, b.targetName ∉ done)
    (distinct : (bindings.map ArgumentBinding.targetName).Nodup)
    (path : draft.path = Template.expand (partly value done) pieces) :
    ∃ more, loop placeArgument draft bindings = .ok { draft with path := Template.expand (partly value more) pieces } ∧
      (∀ b ∈ bindings, b.targetName ∈ more) ∧ ∀ name ∈ done, name ∈ more := by
  induction bindings generalizing draft done with
  | nil => exact ⟨done,by rw [← path]; rfl,fun _ none_ => (nomatch none_),fun _ member => member⟩
  | cons b rest ih =>
    rw [List.map_cons,List.nodup_cons] at distinct
    rw [List.forall_mem_cons] at only reads texts holes unfilled
    obtain ⟨text,scalar,readable⟩ := texts.1
    have placed := placeArgument_of_reads clean only.1 reads.1 scalar readable holes.1 unfilled.1 path
    have fresh : ∀ c ∈ rest, c.targetName ∉ b.targetName::done := by
      intro c member
      rw [List.mem_cons,not_or]
      refine ⟨?_,unfilled.2 c member⟩
      intro same
      exact distinct.1 (List.mem_map.mpr ⟨c,member,same⟩)
    obtain ⟨more,done_,own,kept⟩ := @ih (b.targetName::done)
      { draft with path := Template.expand (partly value (b.targetName::done)) pieces } only.2 reads.2 texts.2 holes.2 fresh distinct.2 rfl
    refine ⟨more,loop_cons_eq_ok.mpr ⟨_,placed,done_⟩,?_,fun name member => kept name (List.mem_cons_of_mem _ member)⟩
    rw [List.forall_mem_cons]
    exact ⟨kept _ List.mem_cons_self,own⟩

end Filling

section Requests

variable [Pydantic] {tool : ToolDefinition} {arguments : Dict} {value : Str → Value} {baseUrl : Str}

/-- The loop over the bindings leaves the template with some of its placeholders filled. -/
theorem loop_fills {pieces : List PathPiece} (clean : ∀ p ∈ pieces, CleanPiece p)
    (named : ∀ b ∈ tool.operation.bindings, b.target = .path → CodePoint.closingBrace ∉ b.targetName)
    (assigned : Assigned tool arguments value) {before rest : List ArgumentBinding} {draft final : Draft}
    (all : tool.operation.bindings = before ++ rest) (first : loop placeArgument (blankDraft tool arguments) before = .ok draft)
    (later : loop placeArgument draft rest = .ok final)
    (path : ∃ done, draft.path = Template.expand (partly value done) pieces) :
    ∃ done, final.path = Template.expand (partly value done) pieces := by
  induction rest generalizing before draft with
  | nil =>
    cases later
    exact path
  | cons b rest ih =>
    obtain ⟨next,placed,later⟩ := loop_cons_eq_ok.mp later
    obtain ⟨done,path⟩ := path
    have member : b ∈ tool.operation.bindings := by simp [all]
    have filled := placeArgument_fills clean (named b member)
      (fun target held found => assigned before b rest draft held all target first found) path placed
    have further : tool.operation.bindings = (before ++ [b]) ++ rest := by
      rw [all,List.append_assoc,List.singleton_append]
    exact ih further (loop_append_eq_ok.mpr ⟨draft,first,loop_cons_eq_ok.mpr ⟨next,placed,rfl⟩⟩) later filled

theorem blank_path {pieces : List PathPiece} (source : sourceOf pieces = tool.operation.pathTemplate) :
    (blankDraft tool arguments).path = Template.expand (partly value []) pieces := by
  rw [blankDraft,← source]
  exact Template.expand_congr (fun m _ => by simp [partly,Template.mark,placeholder])

/-- A prepared path is the template with every placeholder replaced by its encoded value. -/
theorem prepareRequest_filled {request : PreparedRequest} {pieces : List PathPiece} (clean : ∀ p ∈ pieces, CleanPiece p)
    (source : sourceOf pieces = tool.operation.pathTemplate)
    (named : ∀ b ∈ tool.operation.bindings, b.target = .path → CodePoint.closingBrace ∉ b.targetName)
    (assigned : Assigned tool arguments value) (prepared : prepareRequest tool arguments baseUrl = .ok request) :
    request.path = Template.expand (fun name => encodedOf (value name)) pieces ∧
      request.path.any (fun c => c == CodePoint.openingBrace || c == CodePoint.closingBrace) = false := by
  unfold prepareRequest at prepared
  obtain ⟨draft,placed,prepared⟩ := bind_eq_ok.mp prepared
  obtain ⟨filled,prepared⟩ := refuse_bind_eq_ok.mp prepared
  obtain ⟨⟨body,contentType⟩,_,prepared⟩ := bind_eq_ok.mp prepared
  obtain ⟨url,_,prepared⟩ := bind_eq_ok.mp prepared
  cases prepared
  obtain ⟨done,path⟩ := loop_fills clean named assigned (List.nil_append _).symm rfl placed ⟨[],blank_path source⟩
  refine ⟨?_,filled⟩
  rw [path] at filled
  exact path.trans (expand_partly_filled filled)

omit [Pydantic] in
theorem nodup_targetNames (operation : ToolOperation) (only : ∀ b ∈ operation.bindings, b.target = .path) :
    (operation.bindings.map ArgumentBinding.targetName).Nodup := by
  have distinct := operation.accepted.2.1
  rw [ToolOperation.locations] at distinct
  have same : operation.bindings.map (fun b => (b.target,b.targetName)) =
      (operation.bindings.map ArgumentBinding.targetName).map (Prod.mk BindingTarget.path) := by
    rw [List.map_map]
    exact List.map_congr_left (fun b member => by rw [Function.comp_apply,only b member])
  exact List.Nodup.of_map _ (same ▸ distinct)

/-- Path bindings write nothing, so each reads the arguments as they were given. -/
theorem Filling.assigned {parameters : List Parameter} (filling : Filling tool parameters arguments value) :
    Assigned tool arguments value := by
  intro before b after draft held all _ first found
  have mine : ∀ c ∈ before, c ∈ tool.operation.bindings := fun c member => all ▸ List.mem_append_left _ member
  have unwritten : draft.objects = Objects.start arguments := by
    refine loop_keeps (fun d : Draft => d.objects = Objects.start arguments) ?_ rfl first
    intro s c t member kept stepped
    refine (placeArgument_objects ?_ stepped).trans kept
    rw [filling.only c (mine c member)]
    decide
  have member : b ∈ tool.operation.bindings := by simp [all]
  unfold taken at found
  rw [unwritten,filling.reads b member] at found
  split at found
  next => cases found
  next => cases found
  next given _ is =>
    obtain rfl := Option.some.inj found
    obtain rfl := Option.some.inj is
    rfl

/-- Values with URL texts for all placeholders make a request. -/
theorem exists_prepared {parameters : List Parameter} {pieces : List PathPiece} (clean : ∀ p ∈ pieces, CleanPiece p)
    (source : sourceOf pieces = tool.operation.pathTemplate)
    (holes : ∀ name, name ∈ Template.holes pieces ↔ ∃ p ∈ parameters, p.location = .path ∧ p.name = name)
    (bound : ∀ b ∈ tool.operation.bindings, b.target = .path → ∃ p ∈ parameters, p.location = .path ∧ p.name = b.targetName)
    (filling : Filling tool parameters arguments value) : ∃ request, prepareRequest tool arguments baseUrl = .ok request := by
  obtain ⟨more,placed,own,_⟩ := loop_of_reads (blankDraft tool arguments) clean filling.only filling.reads filling.text
    (fun b member => (holes b.targetName).mpr (bound b member (filling.only b member))) (fun _ _ => List.not_mem_nil)
    (nodup_targetNames tool.operation filling.only) (blank_path source)
  have all : ∀ name ∈ Template.holes pieces, name ∈ more := by
    intro name member
    obtain ⟨p,inside,location,rfl⟩ := (holes name).mp member
    obtain ⟨b,there,same⟩ := filling.every p inside location
    exact same ▸ own b there
  have closed : (Template.expand (partly value more) pieces).any
      (fun c => c == CodePoint.openingBrace || c == CodePoint.closingBrace) = false := by
    rw [List.any_eq_false]
    intro c member
    obtain ⟨piece,inside,written⟩ := List.mem_flatMap.mp member
    cases piece with
    | literal d =>
      rw [List.mem_singleton.mp written]
      have plain := clean _ inside
      simp [plain.1,plain.2]
    | hole name =>
      have filled : Template.fill (partly value more) (.hole name) = encodedOf (value name) :=
        if_pos (all name (Template.mem_holes.mpr inside))
      rw [filled] at written
      have opening : c ≠ CodePoint.openingBrace := fun same =>
        not_mem_encodedOf (by decide) (by decide) (same ▸ written)
      have closing : c ≠ CodePoint.closingBrace := fun same =>
        not_mem_encodedOf (by decide) (by decide) (same ▸ written)
      simp [opening,closing]
  have built : loop placeArgument ⟨tool.operation.pathTemplate,[],[],Objects.start arguments,false⟩ tool.operation.bindings =
      .ok { blankDraft tool arguments with path := Template.expand (partly value more) pieces } := placed
  have url : requestUrl baseUrl (Template.expand (partly value more) pieces) [] =
      .ok (Str.rstrip (fun c => c == CodePoint.ofChar '/') baseUrl ++ Template.expand (partly value more) pieces) := rfl
  refine ⟨⟨tool.operation.method,Str.rstrip (fun c => c == CodePoint.ofChar '/') baseUrl ++ Template.expand (partly value more) pieces,
    Template.expand (partly value more) pieces,[],[(Str.lit "accept",Str.lit "application/json")],none,none⟩,?_⟩
  unfold prepareRequest
  exact bind_eq_ok.mpr ⟨_,built,refuse_bind_eq_ok.mpr ⟨closed,bind_eq_ok.mpr ⟨(none,none),rfl,bind_eq_ok.mpr ⟨_,url,rfl⟩⟩⟩⟩

variable [Unicode]

/-- The path of a request is its template with all placeholders replaced at once, whatever the order
of the bindings; it has no brace and no slash but the template's own. A request is made for all values
that have a URL text. -/
theorem prepareRequest_simultaneous {parameters : List Parameter}
    (accepted : checkPathPlaceholders tool.operation.pathTemplate parameters = .ok ())
    (bound : ∀ b ∈ tool.operation.bindings, b.target = .path → ∃ p ∈ parameters, p.location = .path ∧ p.name = b.targetName)
    (assigned : Assigned tool arguments value) :
    (∀ request, prepareRequest tool arguments baseUrl = .ok request →
      request.path = filledPath tool.operation.pathTemplate value ∧
      CodePoint.openingBrace ∉ request.path ∧ CodePoint.closingBrace ∉ request.path ∧
      List.count (CodePoint.ofChar '/') request.path =
        List.count (CodePoint.ofChar '/') (outsidePlaceholders tool.operation.pathTemplate)) ∧
      (Filling tool parameters arguments value → ∃ request, prepareRequest tool arguments baseUrl = .ok request) := by
  obtain ⟨pieces,clean,source,holes⟩ := checkPathPlaceholders_eq_ok accepted
  have read : readPieces tool.operation.pathTemplate = pieces := by
    rw [← source]
    exact readPieces_sourceOf clean
  refine ⟨fun request prepared => ?_,exists_prepared clean source holes bound⟩
  have named : ∀ b ∈ tool.operation.bindings, b.target = .path → CodePoint.closingBrace ∉ b.targetName := fun b member target =>
    (clean _ (Template.mem_holes.mp ((holes _).mpr (bound b member target)))).2
  obtain ⟨path,closed⟩ := prepareRequest_filled clean source named assigned prepared
  rw [List.any_eq_false] at closed
  refine ⟨by rw [path,filledPath,read],?_,?_,?_⟩
  · exact fun member => closed _ member (by simp)
  · exact fun member => closed _ member (by simp)
  · rw [path,outsidePlaceholders,read]
    exact Template.count_expand (fun name => not_mem_encodedOf (by decide) (by decide))

end Requests

section Pair

local instance pairUnicode : Unicode := Unicode.asciiOnly
local instance pairPydantic : Pydantic := Pydantic.exact

def textSchema : Value := .dict [("type",.str "string")]

/-- A tool with two placeholders, the later one bound first. -/
def pairTool : ToolDefinition where
  toolName := "get_pair"
  displayName := "Get pair"
  description := "Reads a pair."
  inputSchema := [("$schema",.str ToolDefinition.dialect),("type",.str "object"),
    ("properties",.dict [("a",textSchema),("b",textSchema)]),("required",.list [.str "a",.str "b"]),
    ("additionalProperties",.bool false)]
  operation := ⟨.get,"/\x7ba\x7d/\x7bb\x7d",[⟨"/b",.path,"b",by decide +kernel⟩,⟨"/a",.path,"a",by decide +kernel⟩],false,
    by decide +kernel⟩
  policy := ⟨.read,false,ToolAccessPolicy.unrestricted⟩
  provenance := ⟨none,"/\x7ba\x7d/\x7bb\x7d",.get,[],false,.generated,by decide +kernel⟩
  accepted := by decide +kernel

def pairParameters : List Parameter :=
  [⟨"a",.path,true,[("type",.str "string")],none⟩,⟨"b",.path,true,[("type",.str "string")],none⟩]

/-- The value of one placeholder spells the other. -/
def pairValue (name : Str) : Value := if name = "a" then .str "\x7bb\x7d" else .str "/"

def pairArguments : Dict := [("a",.str "\x7bb\x7d"),("b",.str "/")]

theorem pair_filling : Filling pairTool pairParameters pairArguments pairValue where
  only := by decide
  every := by decide
  reads := List.forall_mem_cons.mpr ⟨rfl,List.forall_mem_cons.mpr ⟨rfl,fun _ none_ => (nomatch none_)⟩⟩
  text := List.forall_mem_cons.mpr ⟨⟨"/",rfl,by decide⟩,List.forall_mem_cons.mpr ⟨⟨"\x7bb\x7d",rfl,by decide⟩,
    fun _ none_ => (nomatch none_)⟩⟩

theorem pair_simultaneous : ∃ request, prepareRequest pairTool pairArguments "http://desk.test" = .ok request ∧
    request.path = filledPath "/\x7ba\x7d/\x7bb\x7d" pairValue ∧ CodePoint.openingBrace ∉ request.path ∧
    CodePoint.closingBrace ∉ request.path ∧ List.count (CodePoint.ofChar '/') request.path =
      List.count (CodePoint.ofChar '/') (outsidePlaceholders "/\x7ba\x7d/\x7bb\x7d") := by
  have accepted : checkPathPlaceholders pairTool.operation.pathTemplate pairParameters = .ok () := rfl
  have bound : ∀ b ∈ pairTool.operation.bindings, b.target = .path →
      ∃ p ∈ pairParameters, p.location = .path ∧ p.name = b.targetName := by decide
  obtain ⟨paths,makes⟩ := @prepareRequest_simultaneous _ pairTool pairArguments pairValue "http://desk.test" _ pairParameters accepted bound pair_filling.assigned
  obtain ⟨request,prepared⟩ := makes pair_filling
  exact ⟨request,prepared,paths request prepared⟩

end Pair

end ToolLayer.Policy
