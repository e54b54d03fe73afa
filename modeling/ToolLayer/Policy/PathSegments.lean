import ToolLayer.Contracts.SchemaSubset
import ToolLayer.Kit.DotSegments
import ToolLayer.OpenApi.Bindings
import ToolLayer.Policy.PathSubstitution

/-! Where a path argument can move a request: the segments of the prepared path
after dot-segment removal, against the segments of the template. -/
namespace ToolLayer.Policy
open Python Kit Kit.Result OpenApi

/-- The segments of an absolute path. -/
def segments (path : Str) : List Str := (Str.split path '/').drop 1

/-- RFC 3986 dot-segment removal. -/
def removeDotSegments (path : List Str) : List Str :=
  DotSegments.remove (fun s => s == Str.lit ".") (fun s => s == Str.lit "..") [] [] path

inductive SegmentShape where
  | literal
  | named (name : Str)
  | mixed

/-- What a template segment is made of: text alone, one placeholder alone, or more. -/
def segmentShape (segment : Str) : SegmentShape :=
  match readPieces segment with
  | [.hole name] => .named name
  | pieces => if (Template.holes pieces).isEmpty then .literal else .mixed

/-- The request addresses the template's own route: as many segments, the literal
ones in place, none that a placeholder alone filled left empty. -/
structure StaysInSegments (template path : Str) : Prop where
  count : (removeDotSegments (segments path)).length = (segments template).length
  literal : ∀ (i : Nat) (s : Str), (segments template)[i]? = some s → segmentShape s = .literal →
    (removeDotSegments (segments path))[i]? = some s
  named : ∀ (i : Nat) (s name : Str), (segments template)[i]? = some s → segmentShape s = .named name →
    (removeDotSegments (segments path))[i]? ≠ some []

/-- The text of the argument that fills a placeholder. -/
def argumentText (arguments : Dict) (name : Str) : Str :=
  match scalarText (Dict.get arguments name) [] with
  | .ok text => text
  | .error _ => []

/-- A template segment with the arguments' own text, unencoded, in its placeholders. -/
def filledSegment (arguments : Dict) (segment : Str) : Str :=
  Template.expand (argumentText arguments) (readPieces segment)

/-- The arguments leave no dot segment behind and fill every lone placeholder. A
last segment made of several pieces may still come out as a dot. -/
structure LeavesNoDots (template : Str) (arguments : Dict) : Prop where
  inner : ∀ s ∈ (segments template).dropLast,
    filledSegment arguments s ≠ Str.lit "." ∧ filledSegment arguments s ≠ Str.lit ".."
  last : ∀ s, (segments template).getLast? = some s →
    (filledSegment arguments s = Str.lit "." → segmentShape s = .mixed) ∧
    (filledSegment arguments s = Str.lit ".." → segmentShape s = .mixed ∧ (segments template).length = 1)
  filled : ∀ s ∈ segments template, ∀ name, segmentShape s = .named name → argumentText arguments name ≠ []

/-- A path argument as it stands in the URL. -/
def quotedText (arguments : Dict) (name : Str) : Str := (argumentText arguments name).flatMap Url.quotePoint

theorem unreserved_of_mem_quotedText {arguments : Dict} {name : Str} {c : CodePoint}
    (member : c ∈ quotedText arguments name) : Url.unreserved c = true ∨ c = '%' := by
  obtain ⟨d,_,written⟩ := List.mem_flatMap.mp member
  exact Url.quotePoint_alphabet written

/-- A pointer to a top-level name that needs no escaping reads that member. -/
theorem readPointer_plain {name : Str} (plain : name.any needsEscape = false) (arguments : Dict) :
    readPointer (Objects.start arguments) (CodePoint.ofChar '/' :: escape name) =
      (Assoc.get name arguments).map (Held.of [name]) := by
  have clean : ∀ c ∈ name, (c == CodePoint.ofChar '/') = false := by
    intro c member
    rw [beq_eq_false_iff_ne]
    rintro rfl
    rw [List.any_eq_false] at plain
    exact plain _ member (by decide)
  have tokens : pointerTokens (CodePoint.ofChar '/' :: name) = [name] := by
    rw [pointerTokens,Str.split,Split.cut_sep _ _ _ (by simp),Split.cut_clean _ _ clean]
    rfl
  rw [escape_plain plain,readPointer,if_neg (by simp),tokens]
  simp only [readTokens,unescape_plain plain,Objects.lookup_start,Objects.givenAt,Option.bind_some,List.nil_append]
  cases Assoc.get name arguments <;> rfl

section Filling

theorem encodedOf_shown (arguments : Dict) (name : Str) :
    encodedOf (Held.of [name] (Dict.get arguments name)).shown = quotedText arguments name := by
  rw [encodedOf,textOf,scalarText_shown]
  rfl

variable [Unicode] [Pydantic]

/-- The parameters of a converted tool come first, and they read the arguments as they were given. -/
theorem assigned_of_madeFrom {tool : ToolDefinition} {path : Str} {parameters : List Parameter}
    (made : MadeFrom path parameters tool) (arguments : Dict) :
    Assigned tool arguments (fun name => (Held.of [name] (Dict.get arguments name)).shown) := by
  obtain ⟨own,body,binds,bodies,all⟩ := made.bindings
  intro before b after draft held same target first found
  have notBody : ∀ c ∈ own, c.target ≠ .body := by
    intro c member
    obtain ⟨p,_,_,location,_⟩ := exists_left binds member
    rw [location]
    cases p.location <;> simp [ParameterLocation.target]
  have inOwn : (∀ c ∈ before, c ∈ own) ∧ b ∈ own := by
    rcases List.append_eq_append_iff.mp (same.symm.trans all) with ⟨between,whole,tail⟩ | ⟨between,whole,tail⟩
    · cases between with
      | nil =>
        have inBody : b ∈ body := by
          rw [← show b::after = body from tail]
          exact List.mem_cons_self
        rw [bodies b inBody] at target
        cases target
      | cons c rest =>
        obtain ⟨rfl,_⟩ := List.cons.inj tail
        rw [whole]
        exact ⟨fun d member => List.mem_append_left _ member,List.mem_append_right _ List.mem_cons_self⟩
    · have inBody : b ∈ body := by simp [tail]
      rw [bodies b inBody] at target
      cases target
  have unwritten : draft.objects = Objects.start arguments := by
    refine loop_keeps (fun d : Draft => d.objects = Objects.start arguments) ?_ rfl first
    intro s c t member kept stepped
    exact (placeArgument_objects (notBody c (inOwn.1 c member)) stepped).trans kept
  obtain ⟨p,inside,pointer,_,name⟩ := exists_left binds inOwn.2
  unfold taken at found
  rw [unwritten,pointer,readPointer_plain (made.plain_names p inside)] at found
  simp only [name,Dict.get]
  cases there : Assoc.get p.name arguments with
  | none =>
    rw [there] at found
    cases found
  | some v =>
    rw [there,Option.map_some] at found
    split at found
    next => cases found
    next => cases found
    next given _ is =>
      obtain rfl := Option.some.inj found
      obtain rfl := Option.some.inj is
      rfl

/-- A prepared path is the template with every placeholder filled by its encoded argument. -/
theorem prepareRequest_path {tool : ToolDefinition} {arguments : Dict} {baseUrl : Str}
    {request : PreparedRequest} {path : Str} {parameters : List Parameter}
    (made : MadeFrom path parameters tool) (prepared : prepareRequest tool arguments baseUrl = .ok request) :
    ∃ pieces, (∀ p ∈ pieces, CleanPiece p) ∧ sourceOf pieces = path ∧
      (∀ name ∈ Template.holes pieces, name.any needsEscape = false) ∧
      request.path = Template.expand (quotedText arguments) pieces := by
  obtain ⟨pieces,clean,source,holes⟩ := checkPathPlaceholders_eq_ok made.placeholders
  refine ⟨pieces,clean,source,?_,?_⟩
  · intro name member
    obtain ⟨p,inside,_,rfl⟩ := (holes name).mp member
    exact made.plain_names p inside
  have named : ∀ b ∈ tool.operation.bindings, b.target = .path → CodePoint.closingBrace ∉ b.targetName := by
    intro b member target
    obtain ⟨own,body,binds,bodies,all⟩ := made.bindings
    rw [all,List.mem_append] at member
    rcases member with mine | other
    · obtain ⟨p,inside,_,location,name⟩ := exists_left binds mine
      have isPath : p.location = .path := by
        rw [target] at location
        cases shape : p.location
        · rfl
        · rw [shape] at location
          cases location
      rw [name]
      exact (clean _ (Template.mem_holes.mp ((holes p.name).mpr ⟨p,inside,isPath,rfl⟩))).2
    · rw [bodies b other] at target
      cases target
  have filled := (prepareRequest_filled clean (source.trans made.template.symm) named (assigned_of_madeFrom made arguments) prepared).1
  rw [filled]
  exact Template.expand_congr (fun name _ => encodedOf_shown arguments name)

end Filling

section Segments

def slash (c : CodePoint) : Bool := c == CodePoint.ofChar '/'

/-- The segments of a template as pieces. -/
def pieceSegments (pieces : List PathPiece) : List (List PathPiece) :=
  (Split.cut (Template.isSeparator slash) pieces).drop 1

/-- Cutting a filled template gives its filled segments. -/
theorem segments_expand (value : Str → Str) (pieces : List PathPiece)
    (inside : ∀ name ∈ Template.holes pieces, ∀ c ∈ value name, slash c = false) :
    segments (Template.expand value pieces) = (pieceSegments pieces).map (Template.expand value) := by
  rw [segments,Str.split,Template.cut_expand (fun c => c == CodePoint.ofChar '/') value pieces inside,
    pieceSegments,List.map_drop]
  rfl

theorem mem_of_mem_pieceSegments {pieces segment : List PathPiece} (member : segment ∈ pieceSegments pieces)
    {p : PathPiece} (inside : p ∈ segment) : p ∈ pieces :=
  Split.mem_of_mem_cut _ _ segment (List.mem_of_mem_drop member) p inside

theorem segmentShape_eq_named {segment : List PathPiece} (clean : ∀ p ∈ segment, CleanPiece p) {name : Str} :
    segmentShape (sourceOf segment) = .named name ↔ segment = [.hole name] := by
  rw [segmentShape,readPieces_sourceOf clean]
  split
  next other => simp
  next different =>
    constructor
    · intro shape
      split at shape <;> cases shape
    · intro same
      exact absurd same (different name)

theorem segmentShape_eq_literal {segment : List PathPiece} (clean : ∀ p ∈ segment, CleanPiece p) :
    segmentShape (sourceOf segment) = .literal ↔ Template.holes segment = [] := by
  rw [segmentShape,readPieces_sourceOf clean]
  split
  next name => simp [Template.holes]
  next different =>
    split
    next none => simpa using none
    next some => simpa using some

theorem filledSegment_sourceOf {segment : List PathPiece} (clean : ∀ p ∈ segment, CleanPiece p)
    (arguments : Dict) :
    filledSegment arguments (sourceOf segment) = Template.expand (argumentText arguments) segment := by
  rw [filledSegment,readPieces_sourceOf clean]

/-- A segment without holes is filled with itself. -/
theorem expand_literal {segment : List PathPiece} (literal : Template.holes segment = []) (value : Str → Str) :
    Template.expand value segment = sourceOf segment :=
  Template.expand_congr (by simp [literal])

def onlyDots (s : Str) : Prop := ∀ c ∈ s, c = CodePoint.ofChar '.'

theorem onlyDots_here : onlyDots (Str.lit ".") := by simp [onlyDots,Str.lit]

theorem onlyDots_up : onlyDots (Str.lit "..") := by simp [onlyDots,Str.lit]

theorem flatMap_quotePoint_unreserved {s : Str} (kept : ∀ c ∈ s, Url.unreserved c = true) :
    s.flatMap Url.quotePoint = s := by
  induction s with
  | nil => rfl
  | cons c rest ih =>
    rw [List.flatMap_cons,Url.quotePoint_unreserved (kept c (by simp)),
      ih (fun d member => kept d (by simp [member]))]
    rfl

theorem quoted_of_onlyDots {s : Str} (dots : onlyDots s) : s.flatMap Url.quotePoint = s :=
  flatMap_quotePoint_unreserved (fun c member => by rw [dots c member]; decide)

/-- Encoding never makes a dot: encoded text of dots alone was dots before. -/
theorem quoted_onlyDots {s : Str} (dots : onlyDots (s.flatMap Url.quotePoint)) :
    s.flatMap Url.quotePoint = s := by
  refine flatMap_quotePoint_unreserved (fun c member => ?_)
  by_contra changed
  obtain ⟨rest,image⟩ := Url.quotePoint_reserved (by simpa using changed)
  have percent := dots '%' (List.mem_flatMap.mpr ⟨c,member,by simp [image]⟩)
  exact absurd percent (by decide)

theorem onlyDots_value {value : Str → Str} {segment : List PathPiece}
    (dots : onlyDots (Template.expand value segment)) {name : Str} (hole : name ∈ Template.holes segment) :
    onlyDots (value name) := fun c member =>
  dots c (List.mem_flatMap.mpr ⟨_,Template.mem_holes.mp hole,member⟩)

/-- A segment of dots alone is the same before and after encoding. -/
theorem expand_quotedText_eq_iff {segment : List PathPiece} {arguments : Dict} {word : Str}
    (dots : onlyDots word) :
    Template.expand (quotedText arguments) segment = word ↔
      Template.expand (argumentText arguments) segment = word := by
  constructor
  · rintro rfl
    exact Template.expand_congr (fun name hole => (quoted_onlyDots (onlyDots_value dots hole)).symm)
  · rintro rfl
    exact Template.expand_congr (fun name hole => quoted_of_onlyDots (onlyDots_value dots hole))

theorem quotedText_eq_nil {arguments : Dict} {name : Str} :
    quotedText arguments name = [] ↔ argumentText arguments name = [] := by
  constructor
  · intro empty
    rw [← empty]
    exact (quoted_onlyDots (s := argumentText arguments name)
      (by rw [show (argumentText arguments name).flatMap Url.quotePoint = [] from empty]; simp [onlyDots])).symm
  · intro empty
    rw [quotedText,empty]
    rfl

private theorem getElem?_concat {A : Type*} (front : List A) (x y : A) (i : Nat) :
    (front ++ [x])[i]? = some y ↔ front[i]? = some y ∨ (i = front.length ∧ y = x) := by
  rcases lt_trichotomy i front.length with before | same | after
  · rw [List.getElem?_append_left before]
    simp [Nat.ne_of_lt before]
  · subst same
    simp [eq_comm]
  · rw [List.getElem?_append_right (Nat.le_of_lt after),List.getElem?_eq_none (by simp; omega),
      List.getElem?_eq_none (Nat.le_of_lt after)]
    simp [Nat.ne_of_gt after]

theorem plainDot_iff {segment : List PathPiece} {arguments : Dict} :
    ((Template.expand (quotedText arguments) segment == Str.lit ".") = false ∧
      (Template.expand (quotedText arguments) segment == Str.lit "..") = false) ↔
    (Template.expand (argumentText arguments) segment ≠ Str.lit "." ∧
      Template.expand (argumentText arguments) segment ≠ Str.lit "..") := by
  rw [beq_eq_false_iff_ne,beq_eq_false_iff_ne,Ne,Ne,expand_quotedText_eq_iff onlyDots_here,
    expand_quotedText_eq_iff onlyDots_up]

/-- The last segment of the request after removal. -/
def lastSegment (arguments : Dict) (last : List PathPiece) : Str :=
  if (Template.expand (quotedText arguments) last == Str.lit ".") = true ∨
      (Template.expand (quotedText arguments) last == Str.lit "..") = true then []
  else Template.expand (quotedText arguments) last

theorem lastSegment_dots {arguments : Dict} {last : List PathPiece}
    (dots : Template.expand (argumentText arguments) last = Str.lit "." ∨
      Template.expand (argumentText arguments) last = Str.lit "..") : lastSegment arguments last = [] := by
  rw [lastSegment,if_pos]
  rw [beq_iff_eq,beq_iff_eq,expand_quotedText_eq_iff onlyDots_here,expand_quotedText_eq_iff onlyDots_up]
  exact dots

theorem lastSegment_plain {arguments : Dict} {last : List PathPiece}
    (one : Template.expand (argumentText arguments) last ≠ Str.lit ".")
    (two : Template.expand (argumentText arguments) last ≠ Str.lit "..") :
    lastSegment arguments last = Template.expand (quotedText arguments) last := by
  rw [lastSegment,if_neg]
  rw [beq_iff_eq,beq_iff_eq,expand_quotedText_eq_iff onlyDots_here,expand_quotedText_eq_iff onlyDots_up]
  exact not_or.mpr ⟨one,two⟩

variable {arguments : Dict} {template path : Str} {front : List (List PathPiece)} {last : List PathPiece}

/-- The segment count is kept exactly when no dot stands before the last segment. -/
theorem count_iff (filled : segments path = (front ++ [last]).map (Template.expand (quotedText arguments))) :
    (removeDotSegments (segments path)).length = (front ++ [last]).length ↔
      (∀ segment ∈ front, Template.expand (argumentText arguments) segment ≠ Str.lit "." ∧
        Template.expand (argumentText arguments) segment ≠ Str.lit "..") ∧
      (Template.expand (argumentText arguments) last = Str.lit ".." → front = []) := by
  have disjoint : (Template.expand (quotedText arguments) last == Str.lit ".") = true →
      (Template.expand (quotedText arguments) last == Str.lit "..") = false := by
    intro one
    rw [beq_iff_eq.mp one]
    decide
  have counted := DotSegments.length_remove_eq_iff (fun s => s == Str.lit ".") (fun s => s == Str.lit "..") []
    (front.map (Template.expand (quotedText arguments))) (Template.expand (quotedText arguments) last) disjoint
  rw [filled,List.map_append,List.map_singleton,removeDotSegments]
  simp only [List.length_append,List.length_singleton,List.length_map] at counted ⊢
  rw [counted]
  simp only [List.forall_mem_map,plainDot_iff,beq_iff_eq,expand_quotedText_eq_iff onlyDots_up,
    List.map_eq_nil_iff]

/-- What removal leaves when the count is kept. -/
theorem removeDotSegments_eq (filled : segments path = (front ++ [last]).map (Template.expand (quotedText arguments)))
    (plain : ∀ segment ∈ front, Template.expand (argumentText arguments) segment ≠ Str.lit "." ∧
      Template.expand (argumentText arguments) segment ≠ Str.lit "..")
    (top : Template.expand (argumentText arguments) last = Str.lit ".." → front = []) :
    removeDotSegments (segments path) =
      front.map (Template.expand (quotedText arguments)) ++ [lastSegment arguments last] := by
  rw [filled,List.map_append,List.map_singleton,removeDotSegments,
    DotSegments.remove_of_plain (fun s => s == Str.lit ".") (fun s => s == Str.lit "..") []]
  · rfl
  · simpa only [List.forall_mem_map,plainDot_iff] using plain
  · intro goesUp
    rw [beq_iff_eq,expand_quotedText_eq_iff onlyDots_up] at goesUp
    rw [top goesUp,List.map_nil]

theorem staysInSegments_iff (clean : ∀ segment ∈ front ++ [last], ∀ p ∈ segment, CleanPiece p)
    (cut : segments template = (front ++ [last]).map sourceOf)
    (filled : segments path = (front ++ [last]).map (Template.expand (quotedText arguments))) :
    StaysInSegments template path ↔ LeavesNoDots template arguments := by
  have lastClean := clean last (by simp)
  have frontClean : ∀ segment ∈ front, ∀ p ∈ segment, CleanPiece p :=
    fun segment member => clean segment (by simp [member])
  have size : (segments template).length = front.length + 1 := by simp [cut]
  constructor
  · intro stays
    have counted := stays.count
    rw [cut,List.length_map,count_iff filled] at counted
    obtain ⟨plain,top⟩ := counted
    have shape := removeDotSegments_eq filled plain top
    have atLast : (removeDotSegments (segments path))[front.length]? = some (lastSegment arguments last) := by
      simp [shape]
    have hereLast : (segments template)[front.length]? = some (sourceOf last) := by simp [cut]
    -- A dotted last segment is removed, which only a mixed segment survives.
    have mixed : Template.expand (argumentText arguments) last = Str.lit "." ∨
        Template.expand (argumentText arguments) last = Str.lit ".." → segmentShape (sourceOf last) = .mixed := by
      intro dots
      rw [lastSegment_dots dots] at atLast
      cases kind : segmentShape (sourceOf last) with
      | mixed => rfl
      | named name => exact absurd atLast (stays.named _ _ _ hereLast kind)
      | literal =>
        have kept := stays.literal _ _ hereLast kind
        rw [atLast,Option.some.injEq] at kept
        rw [expand_literal ((segmentShape_eq_literal lastClean).mp kind),← kept] at dots
        rcases dots with one | two
        · exact absurd one (by decide)
        · exact absurd two (by decide)
    refine ⟨?_,?_,?_⟩
    · intro s member
      rw [cut,List.map_append,List.map_singleton,List.dropLast_concat] at member
      obtain ⟨segment,inside,rfl⟩ := List.mem_map.mp member
      rw [filledSegment_sourceOf (frontClean segment inside)]
      exact plain segment inside
    · intro s isLast
      rw [cut,List.map_append,List.map_singleton,List.getLast?_concat,Option.some.injEq] at isLast
      subst isLast
      rw [filledSegment_sourceOf lastClean,size]
      exact ⟨fun one => mixed (Or.inl one),fun two => ⟨mixed (Or.inr two),by simp [top two]⟩⟩
    · intro s member name kind empty
      rw [cut] at member
      obtain ⟨segment,inside,rfl⟩ := List.mem_map.mp member
      obtain rfl := (segmentShape_eq_named (clean segment inside)).mp kind
      have blank : Template.expand (quotedText arguments) [.hole name] = [] := by
        simp [Template.fill,quotedText_eq_nil.mpr empty]
      rcases List.mem_append.mp inside with early | late
      · obtain ⟨i,found⟩ := List.getElem?_of_mem early
        refine stays.named i _ name ?_ kind ?_
        · rw [cut,List.getElem?_map,List.getElem?_append_left (List.getElem?_eq_some_iff.mp found).1,found]
          rfl
        · rw [shape,List.getElem?_append_left (by simpa using (List.getElem?_eq_some_iff.mp found).1),
            List.getElem?_map,found,Option.map_some,blank]
      · obtain rfl := List.mem_singleton.mp late
        refine stays.named front.length _ name hereLast kind ?_
        have unencoded : Template.expand (argumentText arguments) [.hole name] = [] := by
          simp [Template.fill,empty]
        rw [atLast,lastSegment_plain (by rw [unencoded]; decide) (by rw [unencoded]; decide),blank]
  · rintro ⟨inner,lastDots,named⟩
    have plain : ∀ segment ∈ front, Template.expand (argumentText arguments) segment ≠ Str.lit "." ∧
        Template.expand (argumentText arguments) segment ≠ Str.lit ".." := by
      intro segment inside
      rw [← filledSegment_sourceOf (frontClean segment inside)]
      refine inner _ ?_
      rw [cut,List.map_append,List.map_singleton,List.dropLast_concat]
      exact List.mem_map_of_mem inside
    have atEnd := lastDots (sourceOf last) (by rw [cut]; simp)
    rw [filledSegment_sourceOf lastClean,size] at atEnd
    have top : Template.expand (argumentText arguments) last = Str.lit ".." → front = [] := by
      intro two
      exact List.length_eq_zero_iff.mp (by have := (atEnd.2 two).2; omega)
    have shape := removeDotSegments_eq filled plain top
    -- A last segment that is not mixed does not come out as dots.
    have keptLast : segmentShape (sourceOf last) ≠ .mixed →
        lastSegment arguments last = Template.expand (quotedText arguments) last := by
      intro notMixed
      exact lastSegment_plain (fun one => notMixed (atEnd.1 one)) (fun two => notMixed (atEnd.2 two).1)
    refine ⟨?_,?_,?_⟩
    · rw [cut,List.length_map,count_iff filled]
      exact ⟨plain,top⟩
    · intro i s at_i kind
      rw [cut,List.map_append,List.map_singleton,getElem?_concat] at at_i
      rw [shape,getElem?_concat]
      rcases at_i with early | ⟨rfl,rfl⟩
      · rw [List.getElem?_map,Option.map_eq_some_iff] at early
        obtain ⟨segment,found,rfl⟩ := early
        have literal := (segmentShape_eq_literal (frontClean segment (List.mem_of_getElem? found))).mp kind
        exact Or.inl (by rw [List.getElem?_map,found,Option.map_some,expand_literal literal])
      · have literal := (segmentShape_eq_literal lastClean).mp kind
        exact Or.inr ⟨by simp,by rw [keptLast (by simp [kind]),expand_literal literal]⟩
    · intro i s name at_i kind blank
      have filledName : ∀ segment ∈ front ++ [last], segmentShape (sourceOf segment) = .named name →
          Template.expand (quotedText arguments) segment ≠ [] := by
        intro segment inside shape empty
        obtain rfl := (segmentShape_eq_named (clean segment inside)).mp shape
        refine named _ (by rw [cut]; exact List.mem_map_of_mem inside) name shape ?_
        exact quotedText_eq_nil.mp (by simpa [Template.fill] using empty)
      rw [cut,List.map_append,List.map_singleton,getElem?_concat] at at_i
      rw [shape,getElem?_concat] at blank
      rcases at_i with early | ⟨rfl,rfl⟩
      · rw [List.getElem?_map,Option.map_eq_some_iff] at early
        obtain ⟨segment,found,rfl⟩ := early
        rcases blank with this | ⟨outside,_⟩
        · rw [List.getElem?_map,found,Option.map_some,Option.some.injEq] at this
          exact filledName segment (by simp [List.mem_of_getElem? found]) kind this
        · have bound := (List.getElem?_eq_some_iff.mp found).1
          simp only [List.length_map] at outside
          omega
      · rcases blank with this | ⟨_,this⟩
        · simp at this
        · rw [keptLast (by simp [kind])] at this
          exact filledName last (by simp) kind this.symm

end Segments

theorem slash_of_needsEscape {name : Str} (plain : name.any needsEscape = false) :
    ∀ c ∈ name, slash c = false := by
  intro c member
  rw [slash,beq_eq_false_iff_ne]
  rintro rfl
  rw [List.any_eq_false] at plain
  exact plain _ member (by decide)

theorem slash_quotedText {arguments : Dict} {name : Str} : ∀ c ∈ quotedText arguments name, slash c = false := by
  intro c member
  rw [slash,beq_eq_false_iff_ne]
  rintro rfl
  rcases unreserved_of_mem_quotedText member with kept | percent
  · exact absurd kept (by decide)
  · exact absurd percent (by decide)

theorem slash_placeholder {name : Str} (plain : name.any needsEscape = false) :
    ∀ c ∈ Template.mark CodePoint.openingBrace CodePoint.closingBrace name, slash c = false := by
  intro c member
  simp only [Template.mark,List.mem_cons,List.mem_append,List.not_mem_nil,or_false] at member
  rcases member with rfl | inside | rfl
  · decide
  · exact slash_of_needsEscape plain c inside
  · decide

/-- An accepted template starts at the root, so it has at least one segment. -/
theorem pieceSegments_ne_nil {pieces : List PathPiece} {path : Str}
    (template : Patterns.pathTemplate Patterns.whiteSpace path = true) (source : sourceOf pieces = path) :
    pieceSegments pieces ≠ [] := by
  subst source
  cases pieces with
  | nil => simp [sourceOf,Template.source,Patterns.pathTemplate] at template
  | cons piece rest =>
    cases piece with
    | literal c =>
      simp only [sourceOf,Template.source,Template.expand_cons,Template.fill,List.singleton_append,
        Patterns.pathTemplate,Bool.and_eq_true,beq_iff_eq] at template
      rw [pieceSegments,Split.cut_sep _ _ _ (by simp [Template.isSeparator,slash,template.1.1])]
      exact Split.cut_ne_nil _ _
    | hole name =>
      simp only [sourceOf,Template.source,Template.expand_cons,Template.fill,Template.mark,List.cons_append,
        Patterns.pathTemplate,Bool.and_eq_true,beq_iff_eq] at template
      exact absurd template.1.1 (by decide)

section Requests

variable [Unicode] [Pydantic]

/-- A prepared request addresses its template's own route exactly when the
arguments leave no dot segment behind and fill every lone placeholder. -/
theorem prepareRequest_stays_iff (engine : SchemaEngine) (path method baseUrl : Str) (pathItem operation : Dict)
    (tool : ToolDefinition) (proposed : Value) (arguments : Dict) (request : PreparedRequest)
    (converted : convertOperation path method pathItem operation = .ok tool)
    (_accepted : validateArguments engine tool proposed = .ok arguments)
    (prepared : prepareRequest tool arguments baseUrl = .ok request) :
    StaysInSegments tool.operation.pathTemplate request.path ↔
      LeavesNoDots tool.operation.pathTemplate arguments := by
  obtain ⟨parameters,made⟩ := convertOperation_madeFrom converted
  obtain ⟨pieces,clean,source,names,filled⟩ := prepareRequest_path made prepared
  have template := tool.operation.accepted.1
  rw [Bool.and_eq_true,made.template] at template
  have shape := List.dropLast_append_getLast (pieceSegments_ne_nil template.2 source)
  have cut := segments_expand (Template.mark CodePoint.openingBrace CodePoint.closingBrace) pieces
    (fun name hole => slash_placeholder (names name hole))
  have cutFilled := segments_expand (quotedText arguments) pieces (fun name _ => slash_quotedText)
  rw [← shape] at cut cutFilled
  rw [made.template,filled,← source]
  refine staysInSegments_iff ?_ cut cutFilled
  intro segment member p inside
  rw [shape] at member
  exact clean p (mem_of_mem_pieceSegments member inside)

end Requests

section Ticket

local instance asciiTables : Unicode := Unicode.asciiOnly
local instance scalarFields : Pydantic := Pydantic.exact

def ticketOperation : Dict := [(Str.lit "parameters",.list [.dict [(Str.lit "name",.str "ticket_id"),
  (Str.lit "in",.str "path"),(Str.lit "required",.bool true),
  (Str.lit "schema",.dict [(Str.lit "type",.str "string")])]])]

def ticketArguments : Value := .dict [(Str.lit "ticket_id",.str "..")]

/-- The whole way from the operation to the request. -/
def ticketRequest : Except PyExc (ToolDefinition × Dict × PreparedRequest) := do
  let tool ← convertOperation "/v1/tickets/\x7bticket_id\x7d" "get" [] ticketOperation
  let arguments ← validateArguments SchemaSubset.engine tool ticketArguments
  let request ← prepareRequest tool arguments "http://desk.test"
  return (tool,arguments,request)

theorem ticketRequest_ok : okWith (fun run : ToolDefinition × Dict × PreparedRequest =>
    run.1.operation.pathTemplate == Str.lit "/v1/tickets/\x7bticket_id\x7d" &&
      run.2.2.path == Str.lit "/v1/tickets/..") ticketRequest = true := by decide +kernel

/-- The ticket request as its three successful steps. -/
theorem ticketRequest_steps : ∃ tool arguments request,
    convertOperation "/v1/tickets/\x7bticket_id\x7d" "get" [] ticketOperation = .ok tool ∧
    validateArguments SchemaSubset.engine tool ticketArguments = .ok arguments ∧
    prepareRequest tool arguments "http://desk.test" = .ok request ∧
    tool.operation.pathTemplate = "/v1/tickets/\x7bticket_id\x7d" ∧ request.path = "/v1/tickets/.." := by
  obtain ⟨⟨tool,arguments,request⟩,ran,same⟩ := exists_of_okWith ticketRequest_ok
  unfold ticketRequest at ran
  obtain ⟨_,converted,ran⟩ := bind_eq_ok.mp ran
  obtain ⟨_,accepted,ran⟩ := bind_eq_ok.mp ran
  obtain ⟨_,prepared,ran⟩ := bind_eq_ok.mp ran
  cases ran
  rw [Bool.and_eq_true,beq_iff_eq,beq_iff_eq] at same
  exact ⟨tool,arguments,request,converted,accepted,prepared,same.1,same.2⟩

theorem prepareRequest_stays_iff_ticket : ∃ (tool : ToolDefinition) (arguments : Dict) (request : PreparedRequest),
    request.path = "/v1/tickets/.." ∧
    (StaysInSegments tool.operation.pathTemplate request.path ↔
      LeavesNoDots tool.operation.pathTemplate arguments) := by
  obtain ⟨tool,arguments,request,converted,accepted,prepared,_,path⟩ := ticketRequest_steps
  exact ⟨tool,arguments,request,path,prepareRequest_stays_iff SchemaSubset.engine "/v1/tickets/\x7bticket_id\x7d" "get"
    "http://desk.test" [] ticketOperation tool ticketArguments arguments request converted accepted prepared⟩

/-- A ticket id of two dots is accepted, left as it is by the encoder, and makes
the request address the parent of the ticket collection. -/
theorem dots_leave_the_route : ∃ (tool : ToolDefinition) (arguments : Dict) (request : PreparedRequest),
    convertOperation "/v1/tickets/\x7bticket_id\x7d" "get" [] ticketOperation = .ok tool ∧
    validateArguments SchemaSubset.engine tool ticketArguments = .ok arguments ∧
    prepareRequest tool arguments "http://desk.test" = .ok request ∧
    ¬ StaysInSegments tool.operation.pathTemplate request.path := by
  obtain ⟨tool,arguments,request,converted,accepted,prepared,template,path⟩ := ticketRequest_steps
  refine ⟨tool,arguments,request,converted,accepted,prepared,fun stays => ?_⟩
  have counted := stays.count
  rw [template,path] at counted
  exact absurd counted (by decide +kernel)

end Ticket

end ToolLayer.Policy
