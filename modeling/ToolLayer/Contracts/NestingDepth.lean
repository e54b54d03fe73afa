import ToolLayer.Contracts.StrictProjection

/-! What the projection's depth limit measures: the steps to a subschema, and once more every
property whose name begins like the keyword of an array. -/
namespace Python.Str

variable {pattern : Str}

theorem countFrom_skip (passed s : Str) : countFrom pattern passed.length (passed ++ s) = countFrom pattern 0 s := by
  induction passed with
  | nil => rfl
  | cons c rest ih =>
    rw [List.length_cons,List.cons_append,countFrom]
    exact ih

theorem count_found {c : CodePoint} {rest s : Str} : count (c::rest) (c::rest ++ s) = count (c::rest) s + 1 := by
  have found : (c::rest).isPrefixOf (c::rest ++ s) = true := List.isPrefixOf_iff_prefix.mpr (List.prefix_append _ _)
  rw [List.cons_append] at found ⊢
  rw [count,countFrom,if_pos found,List.length_cons,Nat.add_sub_cancel,countFrom_skip]
  rfl

theorem count_missed {c : CodePoint} {s : Str} (other : ¬ pattern <+: c::s) : count pattern (c::s) = count pattern s := by
  rw [← List.isPrefixOf_iff_prefix] at other
  rw [count,countFrom,if_neg other]
  rfl

/-- What lacks a pattern's first code point is passed over. -/
theorem count_absent {c : CodePoint} {rest passed s : Str} (absent : c ∉ passed) :
    count (c::rest) (passed ++ s) = count (c::rest) s := by
  induction passed with
  | nil => rfl
  | cons d more ih =>
    rw [List.mem_cons,not_or] at absent
    rw [List.cons_append,count_missed,ih absent.2]
    intro found
    exact absent.1 (List.cons_prefix_cons.mp found).1

end Python.Str

namespace ToolLayer.Adapters
open Python Kit Kit.Result

/-- What one step adds to a pointer. -/
def Step.text : Step → Str
  | .property name => Str.lit "/properties/" ++ escape name
  | .items => "/items"

def pointerOf (path : List Step) : Str := path.flatMap Step.text

/-- The subschemas below a schema, each with the steps that lead to it. -/
inductive Lies : Dict → List Step → Dict → Prop where
  | here {schema : Dict} : Lies schema [] schema
  | property {schema properties below sub : Dict} {name : Str} {path : List Step}
      (declared : propertiesOf schema = some properties) (member : (name,.dict below) ∈ properties)
      (rest : Lies below path sub) : Lies schema (.property name :: path) sub
  | items {schema below sub : Dict} {path : List Step} (given : itemsOf schema = some below)
      (rest : Lies below path sub) : Lies schema (.items :: path) sub

/-- A subschema of the audited subset. -/
structure Audited (schema : Dict) : Prop extends Projectable schema where
  keywords : ∀ key ∈ Assoc.keys schema, key ∈ supportedSchemaKeywords

def Step.namesItems : Step → Bool
  | .property name => Str.startsWith name "items"
  | .items => false

/-- The code of the limit. -/
def nestingLimit : Str := "schema_nesting_limit_exceeded"

def RaisesNesting [Unicode] (schema : Dict) : Prop := ∃ e, assertProjectable schema = .error e ∧ e.code = nestingLimit

section Counting

theorem pointerOf_cons (s : Step) (path : List Step) : pointerOf (s::path) = s.text ++ pointerOf path := rfl

/-- The rest of a pointer begins with a slash, if there is any. -/
theorem pointerOf_cases (path : List Step) : pointerOf path = [] ∨ ∃ rest, pointerOf path = CodePoint.ofChar '/' :: rest := by
  cases path with
  | nil => exact Or.inl rfl
  | cons s rest =>
    rw [pointerOf_cons]
    cases s with
    | property name => exact Or.inr ⟨_,rfl⟩
    | items => exact Or.inr ⟨_,rfl⟩

/-- A plain word begins an escaped name, whatever follows it, if it begins the name. -/
theorem prefix_escape (word : Str) (plain : word.any needsEscape = false) (name : Str) (path : List Step) :
    word <+: escape name ++ pointerOf path ↔ word <+: name := by
  induction word generalizing name with
  | nil => simp
  | cons c word ih =>
    rw [List.any_cons,Bool.or_eq_false_iff] at plain
    cases name with
    | nil =>
      have never : ¬ (c::word) <+: pointerOf path := by
        intro begins
        rcases pointerOf_cases path with none_ | ⟨rest,slash⟩
        · rw [none_] at begins
          exact List.cons_ne_nil _ _ (List.prefix_nil.mp begins)
        · rw [slash] at begins
          have same := (List.cons_prefix_cons.mp begins).1
          rw [same] at plain
          exact absurd plain.1 (by decide)
      rw [escape_eq_flatMap,List.flatMap_nil,List.nil_append]
      exact iff_of_false never (fun begins => List.cons_ne_nil _ _ (List.prefix_nil.mp begins))
    | cons d name =>
      have next := ih plain.2 name
      rw [escape_eq_flatMap] at next ⊢
      rw [List.flatMap_cons]
      cases special : needsEscape d with
      | false =>
        rw [escapePoint_plain special,List.singleton_append,List.cons_append,List.cons_prefix_cons,List.cons_prefix_cons,next]
      | true =>
        obtain ⟨e,image,_⟩ := escapePoint_special special
        rw [image]
        refine iff_of_false (fun begins => ?_) (fun begins => ?_)
        · have same := (List.cons_prefix_cons.mp begins).1
          rw [same] at plain
          exact absurd plain.1 (by decide)
        · have same := (List.cons_prefix_cons.mp begins).1
          rw [same,special] at plain
          exact absurd plain.1 (by decide)

theorem count_properties (path : List Step) :
    Str.count "/properties/" (pointerOf path) = path.countP (fun s => s != .items) := by
  induction path with
  | nil => rfl
  | cons s rest ih =>
    rw [pointerOf_cons]
    cases s with
    | property name =>
      have found : Str.count "/properties/" (Str.lit "/properties/" ++ (escape name ++ pointerOf rest)) =
          Str.count "/properties/" (escape name ++ pointerOf rest) + 1 := Str.count_found
      have passed : Str.count "/properties/" (escape name ++ pointerOf rest) = Str.count "/properties/" (pointerOf rest) :=
        Str.count_absent (slash_not_mem_escape name)
      rw [Step.text,List.append_assoc,found,passed,ih,List.countP_cons_of_pos (by simp)]
    | items =>
      have missed : Str.count "/properties/" (Str.lit "/items" ++ pointerOf rest) =
          Str.count "/properties/" (Str.lit "items" ++ pointerOf rest) := Str.count_missed (fun found => by
        have second := (List.cons_prefix_cons.mp (List.cons_prefix_cons.mp found).2).1
        exact absurd second (by decide))
      have passed : Str.count "/properties/" (Str.lit "items" ++ pointerOf rest) = Str.count "/properties/" (pointerOf rest) :=
        Str.count_absent (by decide)
      rw [Step.text,missed,passed,ih,List.countP_cons_of_neg (by decide)]

theorem count_items (path : List Step) : Str.count "/items" (pointerOf path) =
    path.countP (fun s => s == .items) + path.countP Step.namesItems := by
  induction path with
  | nil => rfl
  | cons s rest ih =>
    rw [pointerOf_cons]
    cases s with
    | property name =>
      -- The slash that ends the keyword and the name that follows it may spell the pattern.
      have keyword : Str.count "/items" (Str.lit "/properties/" ++ (escape name ++ pointerOf rest)) =
          Str.count "/items" (CodePoint.ofChar '/' :: (escape name ++ pointerOf rest)) := by
        have missed : Str.count "/items" (Str.lit "/properties/" ++ (escape name ++ pointerOf rest)) =
            Str.count "/items" (Str.lit "properties/" ++ (escape name ++ pointerOf rest)) := Str.count_missed (fun found => by
          have second := (List.cons_prefix_cons.mp (List.cons_prefix_cons.mp found).2).1
          exact absurd second (by decide))
        have passed : Str.count "/items" (Str.lit "properties" ++ (CodePoint.ofChar '/' :: (escape name ++ pointerOf rest))) =
            Str.count "/items" (CodePoint.ofChar '/' :: (escape name ++ pointerOf rest)) := Str.count_absent (by decide)
        exact missed.trans passed
      have begins := prefix_escape "items" (by decide) name rest
      rw [Step.text,List.append_assoc,keyword,List.countP_cons_of_neg (by simp)]
      cases spelled : Step.namesItems (.property name) with
      | true =>
        obtain ⟨more,same⟩ := begins.mpr (List.isPrefixOf_iff_prefix.mp spelled)
        have found : Str.count "/items" (Str.lit "/items" ++ more) = Str.count "/items" more + 1 := Str.count_found
        have passed : Str.count "/items" (escape name ++ pointerOf rest) = Str.count "/items" more := by
          rw [← same]
          exact Str.count_absent (by decide)
        have left : Str.count "/items" (escape name ++ pointerOf rest) = Str.count "/items" (pointerOf rest) :=
          Str.count_absent (slash_not_mem_escape name)
        have whole : CodePoint.ofChar '/' :: (escape name ++ pointerOf rest) = Str.lit "/items" ++ more := by
          rw [← same]
          rfl
        rw [whole,found,← passed,left,ih,List.countP_cons_of_pos spelled,Nat.add_assoc]
      | false =>
        have missed : Str.count "/items" (CodePoint.ofChar '/' :: (escape name ++ pointerOf rest)) =
            Str.count "/items" (escape name ++ pointerOf rest) := Str.count_missed (fun found => by
          have inside := begins.mp (List.cons_prefix_cons.mp found).2
          exact Bool.false_ne_true (spelled.symm.trans (List.isPrefixOf_iff_prefix.mpr inside)))
        have passed : Str.count "/items" (escape name ++ pointerOf rest) = Str.count "/items" (pointerOf rest) :=
          Str.count_absent (slash_not_mem_escape name)
        rw [missed,passed,ih,List.countP_cons_of_neg (by simp [spelled])]
    | items =>
      have found : Str.count "/items" (Str.lit "/items" ++ pointerOf rest) = Str.count "/items" (pointerOf rest) + 1 :=
        Str.count_found
      rw [Step.text,found,ih,List.countP_cons_of_pos (by decide),List.countP_cons_of_neg (by decide)]
      omega

/-- Steps, and once more each name that begins with `items`. -/
theorem depthOf_pointerOf (path : List Step) : depthOf (pointerOf path) = path.length + path.countP Step.namesItems := by
  have all := List.length_eq_countP_add_countP (p := fun s => s == Step.items) (l := path)
  have rest : path.countP (fun s => s != .items) = path.countP (fun s => decide ¬(s == Step.items) = true) :=
    List.countP_congr (fun s _ => by simp [bne])
  rw [depthOf,count_properties,count_items,rest]
  omega

end Counting

section Walk

theorem depth_property {schema properties below : Dict} {name : Str} (declared : propertiesOf schema = some properties)
    (member : (name,.dict below) ∈ properties) : (Value.dict below).depth < (Value.dict schema).depth := by
  have inside := Value.depth_le_members member
  have outside := depth_member (propertiesOf_eq_some declared)
  rw [Value.depth] at outside
  exact (Nat.lt_succ_of_le inside).trans outside

/-- The walk yields the subschemas, each with the pointer of its steps. -/
theorem mem_walkSchema {fuel : Nat} {pointer here : Str} {schema sub : Dict} (deep : (Value.dict schema).depth ≤ fuel) :
    (here,sub) ∈ walkSchema fuel pointer schema ↔ ∃ path, Lies schema path sub ∧ here = pointer ++ pointerOf path := by
  induction fuel generalizing pointer schema with
  | zero => exact absurd (depth_pos schema) (Nat.not_lt.mpr deep)
  | succ fuel ih =>
    rw [walkSchema,List.mem_cons,List.mem_append,List.mem_flatMap]
    constructor
    · rintro (top | ⟨⟨name,value⟩,member,inside⟩ | inside)
      · cases top
        exact ⟨[],.here,(List.append_nil _).symm⟩
      · cases value with
        | dict below =>
          cases declared : propertiesOf schema with
          | none =>
            rw [declared] at member
            cases member
          | some properties =>
            rw [declared,Option.getD_some] at member
            have shallow := depth_property declared member
            obtain ⟨path,lies,rfl⟩ := (ih (by omega)).mp inside
            refine ⟨_,.property declared member lies,?_⟩
            rw [pointerOf_cons,Step.text,propertyPointer]
            simp only [List.append_assoc]
        | _ => cases inside
      · cases given : itemsOf schema with
        | none =>
          rw [given] at inside
          cases inside
        | some below =>
          rw [given] at inside
          have shallow := depth_member (itemsOf_eq_some given)
          obtain ⟨path,lies,rfl⟩ := (ih (by omega)).mp inside
          refine ⟨_,.items given lies,?_⟩
          rw [pointerOf_cons,Step.text,itemsPointer,List.append_assoc]
    · rintro ⟨path,lies,rfl⟩
      cases lies with
      | here => exact Or.inl (by rw [pointerOf,List.flatMap_nil,List.append_nil])
      | @property _ properties below _ name path declared member rest =>
        have shallow := depth_property declared member
        refine Or.inr (Or.inl ⟨(name,.dict below),by rw [declared]; exact member,(ih (by omega)).mpr ⟨path,rest,?_⟩⟩)
        rw [pointerOf_cons,Step.text,propertyPointer]
        simp only [List.append_assoc]
      | @items _ below _ path given rest =>
        have shallow := depth_member (itemsOf_eq_some given)
        refine Or.inr (Or.inr ?_)
        rw [given]
        refine (ih (by omega)).mpr ⟨path,rest,?_⟩
        rw [pointerOf_cons,Step.text,itemsPointer,List.append_assoc]

end Walk

section Limit

variable [Unicode]

omit [Unicode] in
theorem Audited.unsupported {schema : Dict} (audited : Audited schema) : unsupportedKeyword schema = none := by
  have none_ : (Assoc.keys schema).filter (fun key => !supportedSchemaKeywords.contains key) = [] := by
    rw [List.filter_eq_nil_iff]
    intro key member
    simpa using audited.keywords key member
  rw [unsupportedKeyword,none_]
  rfl

/-- In the subset a round refuses a deep pointer, and nothing else. -/
theorem checkSubschema_audited (total : Nat) (pointer : Str) {schema : Dict} (audited : Audited schema) :
    (maxNestingDepth < depthOf pointer ∧ ∃ e, checkSubschema total (pointer,schema) = .error e ∧ e.code = nestingLimit) ∨
      (¬ maxNestingDepth < depthOf pointer ∧ ∃ next, checkSubschema total (pointer,schema) = .ok next) := by
  by_cases deep : maxNestingDepth < depthOf pointer
  · refine Or.inl ⟨deep,⟨nestingLimit,"the input schema nests deeper than provider projection supports",pointer⟩,?_,rfl⟩
    simp only [checkSubschema,deep,decide_true]
    rfl
  · have closed : (isObject schema && isOpen schema) = false := by
      cases object : isObject schema with
      | false => rfl
      | true => rw [isOpen,audited.closed object]; rfl
    refine Or.inr ⟨deep,if isObject schema then total + ((propertiesOf schema).getD []).length else total,?_⟩
    simp only [checkSubschema,deep,decide_false,audited.unsupported,audited.type,closed,Option.isSome_none]
    rfl

theorem loop_audited {entries : List (Str × Dict)} (audited : ∀ e ∈ entries, Audited e.2) (total : Nat) :
    ((∃ e ∈ entries, maxNestingDepth < depthOf e.1) ∧
        ∃ e, loop checkSubschema total entries = .error e ∧ e.code = nestingLimit) ∨
      ((¬ ∃ e ∈ entries, maxNestingDepth < depthOf e.1) ∧ ∃ next, loop checkSubschema total entries = .ok next) := by
  induction entries generalizing total with
  | nil => exact Or.inr ⟨by simp,total,rfl⟩
  | cons entry rest ih =>
    obtain ⟨pointer,schema⟩ := entry
    rw [List.forall_mem_cons] at audited
    rw [loop,List.exists_mem_cons_iff]
    rcases checkSubschema_audited total pointer audited.1 with ⟨deep,e,raised,code⟩ | ⟨flat,next,passed⟩
    · rw [raised]
      exact Or.inl ⟨Or.inl deep,e,rfl,code⟩
    · rw [passed]
      rcases ih audited.2 next with ⟨deep,later⟩ | ⟨none_,later⟩
      · exact Or.inl ⟨Or.inr deep,later⟩
      · exact Or.inr ⟨not_or.mpr ⟨flat,none_⟩,later⟩

/-- What the check of a schema of the subset refuses as too deep. -/
theorem raisesNesting_iff {schema : Dict} (audited : ∀ path sub, Lies schema path sub → Audited sub) :
    RaisesNesting schema ↔
      ∃ path sub, Lies schema path sub ∧ maxNestingDepth < path.length + path.countP Step.namesItems := by
  have walked : ∀ e ∈ walkSchema (Value.dict schema).depth [] schema, Audited e.2 := by
    intro e member
    obtain ⟨path,lies,_⟩ := (mem_walkSchema le_rfl).mp member
    exact audited path e.2 lies
  have deep : (∃ e ∈ walkSchema (Value.dict schema).depth [] schema, maxNestingDepth < depthOf e.1) ↔
      ∃ path sub, Lies schema path sub ∧ maxNestingDepth < path.length + path.countP Step.namesItems := by
    constructor
    · rintro ⟨⟨here,sub⟩,member,below⟩
      obtain ⟨path,lies,rfl⟩ := (mem_walkSchema le_rfl).mp member
      rw [List.nil_append,depthOf_pointerOf] at below
      exact ⟨path,sub,lies,below⟩
    · rintro ⟨path,sub,lies,below⟩
      refine ⟨(pointerOf path,sub),(mem_walkSchema le_rfl).mpr ⟨path,lies,rfl⟩,?_⟩
      rwa [depthOf_pointerOf]
  rw [← deep]
  rcases loop_audited walked 0 with ⟨found,e,raised,code⟩ | ⟨none_,total,passed⟩
  · refine iff_of_true ⟨e,?_,code⟩ found
    rw [assertProjectable,raised]
    rfl
  · refine iff_of_false ?_ none_
    rintro ⟨e,raised,code⟩
    rw [assertProjectable,passed] at raised
    obtain ⟨_,rfl⟩ := refuse_eq_error.mp raised
    exact absurd code (by decide)

/-- The limit measures depth exactly when no path of at most eight steps is refused for its names
alone, or another path is too long anyway. -/
theorem nesting_measured_iff {schema : Dict} (audited : ∀ path sub, Lies schema path sub → Audited sub) :
    (RaisesNesting schema ↔ ∃ path sub, Lies schema path sub ∧ 8 < path.length) ↔
      ((∃ path sub, Lies schema path sub ∧ path.length ≤ 8 ∧ 8 < path.length + path.countP Step.namesItems) →
        ∃ path sub, Lies schema path sub ∧ 8 < path.length) := by
  rw [raisesNesting_iff audited]
  constructor
  · rintro same ⟨path,sub,lies,_,counted⟩
    exact same.mp ⟨path,sub,lies,counted⟩
  · intro named
    constructor
    · rintro ⟨path,sub,lies,counted⟩
      by_cases long : 8 < path.length
      · exact ⟨path,sub,lies,long⟩
      · exact named ⟨path,sub,lies,Nat.le_of_not_lt long,counted⟩
    · rintro ⟨path,sub,lies,long⟩
      exact ⟨path,sub,lies,Nat.lt_of_lt_of_le long (Nat.le_add_right _ _)⟩

end Limit

section Tower

/-- Objects in one another, each the property `items` of the next. -/
def tower : Nat → Dict
  | 0 => [("type",.str "string")]
  | n + 1 => [("type",.str "object"),("properties",.dict [("items",.dict (tower n))]),("additionalProperties",.bool false)]

theorem tower_lies {n : Nat} {path : List Step} {sub : Dict} (lies : Lies (tower n) path sub) :
    path.length ≤ n ∧ Audited sub := by
  induction n generalizing path sub with
  | zero =>
    cases lies with
    | here => exact ⟨Nat.le_refl 0,⟨rfl,fun object => (nomatch object)⟩,by decide⟩
    | property declared _ _ => cases declared
    | items given _ => cases given
  | succ n ih =>
    cases lies with
    | here =>
      refine ⟨Nat.zero_le _,⟨rfl,fun _ => rfl⟩,?_⟩
      intro key member
      have keys : Assoc.keys (tower (n + 1)) = [Str.lit "type",Str.lit "properties",Str.lit "additionalProperties"] := rfl
      rw [keys] at member
      revert key
      decide
    | property declared member rest =>
      cases declared
      cases List.mem_singleton.mp member
      obtain ⟨short,audited⟩ := ih rest
      exact ⟨Nat.succ_le_succ short,audited⟩
    | items given _ => cases given

theorem lies_tower (n : Nat) : Lies (tower n) (List.replicate n (.property "items")) (tower 0) := by
  induction n with
  | zero => exact .here
  | succ n ih => exact .property rfl List.mem_cons_self ih

local instance towerUnicode : Unicode := Unicode.asciiOnly

theorem nesting_measured_iff_tower : (RaisesNesting (tower 1) ↔ ∃ path sub, Lies (tower 1) path sub ∧ 8 < path.length) ↔
    ((∃ path sub, Lies (tower 1) path sub ∧ path.length ≤ 8 ∧ 8 < path.length + path.countP Step.namesItems) →
      ∃ path sub, Lies (tower 1) path sub ∧ 8 < path.length) :=
  nesting_measured_iff (fun _ _ lies => (tower_lies lies).2)

/-- Five objects in one another are refused, for their names. -/
theorem named_items_refused : (∀ path sub, Lies (tower 5) path sub → Audited sub) ∧
    ¬ (RaisesNesting (tower 5) ↔ ∃ path sub, Lies (tower 5) path sub ∧ 8 < path.length) := by
  have audited : ∀ path sub, Lies (tower 5) path sub → Audited sub := fun _ _ lies => (tower_lies lies).2
  refine ⟨audited,fun same => ?_⟩
  have raised : RaisesNesting (tower 5) := (raisesNesting_iff audited).mpr ⟨_,_,lies_tower 5,by decide⟩
  obtain ⟨path,sub,lies,long⟩ := same.mp raised
  have short := (tower_lies lies).1
  omega

end Tower

end ToolLayer.Adapters
