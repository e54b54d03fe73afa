import ToolLayer.Contracts.Adapters

/-! How strict the strict projection is, place by place. -/
namespace ToolLayer.Adapters
open Python Kit Kit.Result

inductive Step where
  | property (name : Str)
  | items
  deriving DecidableEq

def child (schema : Dict) : Step → Option Dict
  | .property name =>
    match (propertiesOf schema).bind (Assoc.get name) with
    | some (.dict found) => some found
    | _ => none
  | .items => itemsOf schema

/-- The subschema at a place. -/
def subschema (schema : Dict) (place : List Step) : Option Dict := place.foldlM child schema

@[simp] theorem subschema_nil (schema : Dict) : subschema schema [] = some schema := rfl

theorem subschema_cons (schema : Dict) (s : Step) (rest : List Step) :
    subschema schema (s::rest) = (child schema s).bind (subschema · rest) := rfl

/-- A schema an object may satisfy. -/
def AdmitsObject (schema : Dict) : Prop :=
  Dict.get schema "type" = .str "object" ∨ ∃ types, Dict.get schema "type" = .list types ∧ .str "object" ∈ types

/-- A schema null satisfies, by its type and by its enumeration. -/
structure AdmitsNull (schema : Dict) : Prop where
  type : Dict.get schema "type" = .str "null" ∨ ∃ types, Dict.get schema "type" = .list types ∧ .str "null" ∈ types
  enum : ∀ values, Dict.get schema "enum" = .list values → .null ∈ values

def declaredOf (schema : Dict) : List Str := Assoc.keys ((propertiesOf schema).getD [])

/-- The required names are exactly those of the declared properties. -/
def ListsDeclared (schema : Dict) : Prop := ∀ v, v ∈ requiredOf schema ↔ ∃ name ∈ declaredOf schema, v = .str name

/-- A property of an object schema that need not be given. -/
def IsOptional (schema : Dict) (name : Str) : Prop := name ∈ declaredOf schema ∧ .str name ∉ requiredOf schema

/-- How strict the projected subschema at the place of a canonical one is. -/
structure StrictAt (canonical projected : Dict) : Prop where
  object : AdmitsObject projected → ListsDeclared projected ∧ Dict.get projected "additionalProperties" = .bool false
  optional : AdmitsObject canonical → ∀ name schema, IsOptional canonical name →
    child projected (.property name) = some schema → AdmitsNull schema

/-- Every place of the projection is a place of the canonical schema, and strict there. -/
def StrictEverywhere (canonical projected : Dict) : Prop :=
  ∀ place sub, subschema projected place = some sub → ∃ original, subschema canonical place = some original ∧
    StrictAt original sub

/-- Whether the object at a place is written anew: under properties of objects all the way, with
the items of a property in between but not the items of those. -/
def rewritten : Bool → Dict → List Step → Bool
  | _,schema,[] => isObject schema && (propertiesOf schema).isSome
  | _,schema,.property name::rest =>
    isObject schema && (child schema (.property name)).any (fun found => rewritten true found rest)
  | isProperty,schema,.items::rest => isProperty && (itemsOf schema).any (fun found => rewritten false found rest)

/-- Every object schema at a place that is not written anew lists its properties as required already. -/
def StrictElsewhere (canonical : Dict) : Prop :=
  ∀ place sub, subschema canonical place = some sub → isObject sub = true → rewritten false canonical place = false →
    ListsDeclared sub

section Members

theorem isObject_iff {schema : Dict} : isObject schema = true ↔ Dict.get schema "type" = .str "object" := Value.pyEq_str

theorem isIn_str {s : Str} {values : List Value} : Value.isIn (.str s) values = true ↔ .str s ∈ values := by
  rw [Value.isIn,List.any_eq_true]
  constructor
  · rintro ⟨v,member,same⟩
    cases v with
    | str t =>
      have equal : s = t := by simpa [Value.pyEq] using same
      exact equal ▸ member
    | _ => simp [Value.pyEq] at same
  · exact fun member => ⟨_,member,by simp [Value.pyEq]⟩

theorem isIn_null {values : List Value} : Value.isIn .null values = true ↔ .null ∈ values := by
  rw [Value.isIn,List.any_eq_true]
  constructor
  · rintro ⟨v,member,same⟩
    cases v with
    | null => exact member
    | _ => simp [Value.pyEq] at same
  · exact fun member => ⟨_,member,by simp [Value.pyEq]⟩

theorem propertiesOf_congr {s t : Dict} (same : Dict.get s "properties" = Dict.get t "properties") :
    propertiesOf s = propertiesOf t := by rw [propertiesOf,propertiesOf,same]

theorem itemsOf_congr {s t : Dict} (same : Dict.get s "items" = Dict.get t "items") : itemsOf s = itemsOf t := by
  rw [itemsOf,itemsOf,same]

theorem requiredOf_congr {s t : Dict} (same : Dict.get s "required" = Dict.get t "required") :
    requiredOf s = requiredOf t := by rw [requiredOf,requiredOf,same]

/-- What `_allow_null` does to a schema: its type and its enumeration admit null, the rest stays. -/
structure Widened (schema out : Dict) : Prop where
  other : ∀ key, key ≠ Str.lit "type" → key ≠ Str.lit "enum" → Dict.get out key = Dict.get schema key
  null : AdmitsNull out
  object : AdmitsObject out ↔ AdmitsObject schema

theorem AdmitsObject.congr {s t : Dict} (same : Dict.get s "type" = Dict.get t "type") : AdmitsObject s ↔ AdmitsObject t := by
  rw [AdmitsObject,AdmitsObject,same]

theorem widenType_eq_ok {schema out : Dict} {pointer : Str} (done : widenType schema pointer = .ok out) :
    (∀ key, key ≠ Str.lit "type" → Dict.get out key = Dict.get schema key) ∧
    (Dict.get out "type" = .str "null" ∨ ∃ types, Dict.get out "type" = .list types ∧ .str "null" ∈ types) ∧
    (AdmitsObject out ↔ AdmitsObject schema) := by
  unfold widenType at done
  split at done
  next declared given =>
    cases done
    split
    next there => exact ⟨fun _ _ => rfl,Or.inr ⟨declared,given,isIn_str.mp there⟩,Iff.rfl⟩
    next =>
      have now : Dict.get (Dict.set schema "type" (.list (declared ++ [.str "null"]))) "type" =
          .list (declared ++ [.str "null"]) := by rw [Dict.get_set,if_pos rfl]
      refine ⟨fun key other => by rw [Dict.get_set,if_neg other],Or.inr ⟨_,now,by simp⟩,?_⟩
      have apart : Str.lit "object" ≠ Str.lit "null" := by decide
      simp [AdmitsObject,now,given,apart]
  next declared given =>
    cases done
    split
    next null =>
      rw [null] at given
      exact ⟨fun _ _ => rfl,Or.inl given,Iff.rfl⟩
    next =>
      have now : Dict.get (Dict.set schema "type" (.list [.str declared,.str "null"])) "type" =
          .list [.str declared,.str "null"] := by rw [Dict.get_set,if_pos rfl]
      refine ⟨fun key other => by rw [Dict.get_set,if_neg other],Or.inr ⟨_,now,by simp⟩,?_⟩
      simp [AdmitsObject,now,given,eq_comm]
  next => cases done

theorem widenEnum_other (schema : Dict) {key : Str} (other : key ≠ Str.lit "enum") :
    Dict.get (widenEnum schema) key = Dict.get schema key := by
  unfold widenEnum
  split
  next =>
    split
    next => rfl
    next => rw [Dict.get_set,if_neg other]
  next => rfl

theorem null_mem_widenEnum {schema : Dict} {values : List Value} (found : Dict.get (widenEnum schema) "enum" = .list values) :
    .null ∈ values := by
  unfold widenEnum at found
  split at found
  next given =>
    split at found
    next there =>
      cases given.symm.trans found
      exact isIn_null.mp there
    next =>
      rw [Dict.get_set,if_pos rfl] at found
      cases found
      simp
  next absent => exact absurd found (absent values)

theorem allowNull_eq_ok {schema out : Dict} {pointer : Str} (done : allowNull schema pointer = .ok out) :
    Widened schema out := by
  obtain ⟨widened,typed,rfl⟩ := map_eq_ok.mp done
  obtain ⟨other,null,object⟩ := widenType_eq_ok typed
  have type : Dict.get (widenEnum widened) "type" = Dict.get widened "type" := widenEnum_other widened (by decide)
  refine ⟨fun key first second => (widenEnum_other widened second).trans (other key first),
    ⟨?_,fun values => null_mem_widenEnum⟩,(AdmitsObject.congr type).trans object⟩
  rw [type]
  exact null

end Members

section Places

/-- A projected subschema beside its canonical one. -/
structure Corresponds (canonical projected : Dict) (isRewritten : Bool) : Prop where
  object : AdmitsObject projected ↔ AdmitsObject canonical
  rewritten : isRewritten = true → ListsDeclared projected ∧ Dict.get projected "additionalProperties" = .bool false ∧
    ∀ name schema, IsOptional canonical name → child projected (.property name) = some schema → AdmitsNull schema
  kept : isRewritten = false → propertiesOf projected = propertiesOf canonical ∧
    requiredOf projected = requiredOf canonical ∧
    Dict.get projected "additionalProperties" = Dict.get canonical "additionalProperties"

/-- At a place there is nothing in either schema, or a pair that corresponds. -/
def Paired (isProperty : Bool) (canonical projected : Dict) (place : List Step) : Prop :=
  (subschema canonical place = none ∧ subschema projected place = none) ∨
  ∃ original sub, subschema canonical place = some original ∧ subschema projected place = some sub ∧
    Corresponds original sub (rewritten isProperty canonical place)

theorem Corresponds.refl (schema : Dict) : Corresponds schema schema false :=
  ⟨Iff.rfl,fun given => (nomatch given),fun _ => ⟨rfl,rfl,rfl⟩⟩

/-- What is not written anew may stay as it is. -/
theorem Paired.of_eq {isProperty : Bool} {canonical projected : Dict} {place : List Step}
    (same : subschema projected place = subschema canonical place) (left : rewritten isProperty canonical place = false) :
    Paired isProperty canonical projected place := by
  cases found : subschema canonical place with
  | none => exact Or.inl ⟨found,same.trans found⟩
  | some sub => exact Or.inr ⟨sub,sub,found,same.trans found,left ▸ Corresponds.refl sub⟩

/-- One step down on both sides. -/
theorem Paired.cons {isProperty : Bool} (below : Bool) {canonical projected : Dict} {s : Step} {rest : List Step}
    (step : (child canonical s = none ∧ child projected s = none) ∨ ∃ original sub, child canonical s = some original ∧
      child projected s = some sub ∧ Paired below original sub rest ∧
      rewritten isProperty canonical (s::rest) = rewritten below original rest) :
    Paired isProperty canonical projected (s::rest) := by
  rcases step with ⟨one,two⟩ | ⟨original,sub,one,two,paired,same⟩
  · exact Or.inl ⟨by rw [subschema_cons,one]; rfl,by rw [subschema_cons,two]; rfl⟩
  · unfold Paired
    rw [subschema_cons,subschema_cons,one,two,same]
    exact paired

/-- The properties of an object and their projections. -/
def Projected (strict : Str → Dict → Except AdapterError Dict) (pointer : Str) (required : List Value)
    (property out : Str × Value) : Prop :=
  ∃ value sub, property = (property.1,.dict value) ∧ out = (property.1,.dict sub) ∧
    strictChild strict (propertyPointer pointer property.1) (Value.isIn (.str property.1) required) value = .ok sub

theorem strictProperty_eq_ok {strict : Str → Dict → Except AdapterError Dict} {pointer : Str} {required : List Value}
    {property out : Str × Value} (done : strictProperty strict pointer required property = .ok out) :
    Projected strict pointer required property out := by
  obtain ⟨name,value⟩ := property
  unfold strictProperty at done
  split at done
  next schema isDict =>
    obtain ⟨sub,made,rfl⟩ := map_eq_ok.mp done
    cases isDict
    exact ⟨schema,sub,rfl,rfl,made⟩
  next => cases done

theorem keys_projected {strict : Str → Dict → Except AdapterError Dict} {pointer : Str} {required : List Value}
    {properties out : Dict} (each_ : List.Forall₂ (Projected strict pointer required) properties out) :
    Assoc.keys out = Assoc.keys properties := by
  induction each_ with
  | nil => rfl
  | cons first _ ih =>
    obtain ⟨_,_,_,made,_⟩ := first
    rw [Assoc.keys_cons,Assoc.keys_cons,ih,made]

/-- A property is found on both sides or on none. -/
theorem get_projected {strict : Str → Dict → Except AdapterError Dict} {pointer : Str} {required : List Value}
    {properties out : Dict} (each_ : List.Forall₂ (Projected strict pointer required) properties out) (name : Str) :
    (Assoc.get name properties = none ∧ Assoc.get name out = none) ∨ ∃ value sub,
      Assoc.get name properties = some (.dict value) ∧ Assoc.get name out = some (.dict sub) ∧
      strictChild strict (propertyPointer pointer name) (Value.isIn (.str name) required) value = .ok sub := by
  induction each_ with
  | nil => exact Or.inl ⟨rfl,rfl⟩
  | @cons property made properties out first _ ih =>
    obtain ⟨value,sub,shape,rfl,done⟩ := first
    obtain ⟨key,_⟩ := property
    cases shape
    rw [Assoc.get_cons,Assoc.get_cons]
    by_cases here : key = name
    · subst here
      simp only [if_true]
      exact Or.inr ⟨value,sub,rfl,rfl,done⟩
    · rw [if_neg here,if_neg here]
      exact ih

theorem depth_pos (schema : Dict) : 0 < (Value.dict schema).depth := by
  rw [Value.depth]
  exact Nat.succ_pos _

theorem propertiesOf_eq_some {schema properties : Dict} (given : propertiesOf schema = some properties) :
    Dict.get schema "properties" = .dict properties := by
  unfold propertiesOf at given
  split at given
  next found => exact Option.some.inj given ▸ found
  next => cases given

theorem itemsOf_eq_some {schema items : Dict} (given : itemsOf schema = some items) :
    Dict.get schema "items" = .dict items := by
  unfold itemsOf at given
  split at given
  next found => exact Option.some.inj given ▸ found
  next => cases given

theorem depth_member {schema found : Dict} {key : Str} (given : Dict.get schema key = .dict found) :
    (Value.dict found).depth < (Value.dict schema).depth := by
  rw [Dict.get] at given
  cases there : Assoc.get key schema with
  | none =>
    rw [there] at given
    cases given
  | some v =>
    rw [there,Option.getD_some] at given
    exact given ▸ Value.depth_get there

theorem child_property {schema found : Dict} {name : Str} (there : child schema (.property name) = some found) :
    ∃ properties, propertiesOf schema = some properties ∧ Assoc.get name properties = some (.dict found) := by
  simp only [child] at there
  split at there
  next same =>
    obtain ⟨properties,given,member⟩ := Option.bind_eq_some_iff.mp same
    exact ⟨properties,given,Option.some.inj there ▸ member⟩
  next => cases there

theorem depth_child {schema found : Dict} {s : Step} (there : child schema s = some found) :
    (Value.dict found).depth < (Value.dict schema).depth := by
  cases s with
  | property name =>
    obtain ⟨properties,given,member⟩ := child_property there
    exact (Value.depth_get member).trans (depth_member (propertiesOf_eq_some given))
  | items => exact depth_member (itemsOf_eq_some there)

/-- What one call of `_strictify` does: an object's properties are written anew, all else is returned. -/
inductive Strictified (strict : Str → Dict → Except AdapterError Dict) (pointer : Str) (schema out : Dict) : Prop where
  | anew (properties made : Dict) (object : isObject schema = true) (given : propertiesOf schema = some properties)
      (each_ : List.Forall₂ (Projected strict pointer (requiredOf schema)) properties made)
      (now : propertiesOf out = some made) (required : requiredOf out = (Assoc.keys properties).map .str)
      (closed : Dict.get out "additionalProperties" = .bool false)
      (items : itemsOf out = itemsOf schema) (type : Dict.get out "type" = Dict.get schema "type")
  | same (left : isObject schema = false ∨ propertiesOf schema = none) (unchanged : out = schema)

theorem strictify_eq_ok {fuel : Nat} {pointer : Str} {schema out : Dict}
    (done : strictify (fuel + 1) pointer schema = .ok out) : Strictified (strictify fuel) pointer schema out := by
  rw [strictify] at done
  split at done
  next object =>
    split at done
    next none_ =>
      cases done
      exact .same (Or.inr none_) rfl
    next properties given =>
      obtain ⟨made,each_,rfl⟩ := map_eq_ok.mp done
      refine .anew properties made object given ((each_eq_ok.mp each_).imp (fun _ _ => strictProperty_eq_ok)) ?_ ?_ ?_ ?_ ?_
      · rw [propertiesOf,Dict.get_set,if_neg (by decide),Dict.get_set,if_neg (by decide),Dict.get_set,if_pos rfl]
      · rw [requiredOf,Dict.get_set,if_neg (by decide),Dict.get_set,if_pos rfl]
      · rw [Dict.get_set,if_pos rfl]
      · refine itemsOf_congr ?_
        rw [Dict.get_set,if_neg (by decide),Dict.get_set,if_neg (by decide),Dict.get_set,if_neg (by decide)]
      · rw [Dict.get_set,if_neg (by decide),Dict.get_set,if_neg (by decide),Dict.get_set,if_neg (by decide)]
  next other =>
    cases done
    exact .same (Or.inl (by simpa using other)) rfl

theorem Strictified.itemsOf_eq {strict : Str → Dict → Except AdapterError Dict} {pointer : Str} {schema out : Dict}
    (done : Strictified strict pointer schema out) : itemsOf out = itemsOf schema := by
  cases done with
  | anew _ _ _ _ _ _ _ _ items => exact items
  | same _ unchanged => rw [unchanged]

/-- A property schema after the call: the items are strict too, and null is admitted unless it is required. -/
structure ChildOf (strict : Str → Dict → Except AdapterError Dict) (here : Str) (isRequired : Bool) (made out : Dict) : Prop where
  properties : propertiesOf out = propertiesOf made
  required : requiredOf out = requiredOf made
  closed : Dict.get out "additionalProperties" = Dict.get made "additionalProperties"
  object : AdmitsObject out ↔ AdmitsObject made
  items : (itemsOf made = none ∧ itemsOf out = none) ∨ ∃ items strictItems, itemsOf made = some items ∧
    itemsOf out = some strictItems ∧ strict (itemsPointer here) items = .ok strictItems
  null : isRequired = false → AdmitsNull out

theorem strictChild_eq_ok {strict : Str → Dict → Except AdapterError Dict} {here : Str} {isRequired : Bool} {value out : Dict}
    (done : strictChild strict here isRequired value = .ok out) :
    ∃ made, strict here value = .ok made ∧ ChildOf strict here isRequired made out := by
  obtain ⟨made,first,done⟩ := bind_eq_ok.mp done
  obtain ⟨between,second,done⟩ := bind_eq_ok.mp done
  refine ⟨made,first,?_⟩
  have items : (∀ key, key ≠ Str.lit "items" → Dict.get between key = Dict.get made key) ∧
      ((itemsOf made = none ∧ itemsOf between = none) ∨ ∃ items strictItems, itemsOf made = some items ∧
        itemsOf between = some strictItems ∧ strict (itemsPointer here) items = .ok strictItems) := by
    unfold strictItems at second
    split at second
    next none_ =>
      cases second
      exact ⟨fun _ _ => rfl,Or.inl ⟨none_,none_⟩⟩
    next items given =>
      obtain ⟨made_,strict_,rfl⟩ := map_eq_ok.mp second
      refine ⟨fun key other => by rw [Dict.get_set,if_neg other],Or.inr ⟨items,made_,given,?_,strict_⟩⟩
      rw [itemsOf,Dict.get_set,if_pos rfl]
  obtain ⟨kept,listed⟩ := items
  cases isRequired with
  | true =>
    cases done
    exact ⟨propertiesOf_congr (kept _ (by decide)),requiredOf_congr (kept _ (by decide)),kept _ (by decide),
      AdmitsObject.congr (kept _ (by decide)),listed,fun not => (nomatch not)⟩
  | false =>
    obtain ⟨other,null,object⟩ := allowNull_eq_ok done
    have items : itemsOf out = itemsOf between := itemsOf_congr (other _ (by decide) (by decide))
    refine ⟨(propertiesOf_congr (other _ (by decide) (by decide))).trans (propertiesOf_congr (kept _ (by decide))),
      (requiredOf_congr (other _ (by decide) (by decide))).trans (requiredOf_congr (kept _ (by decide))),
      (other _ (by decide) (by decide)).trans (kept _ (by decide)),
      object.trans (AdmitsObject.congr (kept _ (by decide))),?_,fun _ => null⟩
    rw [items]
    exact listed

/-- An object written anew lists its properties and admits null for the optional ones. -/
theorem Strictified.corresponds {strict : Str → Dict → Except AdapterError Dict} {pointer : Str} {schema out : Dict}
    (done : Strictified strict pointer schema out) : Corresponds schema out (rewritten false schema []) := by
  cases done with
  | anew properties made object given each_ now required closed items type =>
    have anew : rewritten false schema [] = true := by rw [rewritten,object,given]; rfl
    rw [anew]
    refine ⟨AdmitsObject.congr type,fun _ => ⟨?_,closed,?_⟩,fun not => (nomatch not)⟩
    · intro v
      rw [required,declaredOf,now,Option.getD_some,keys_projected each_,List.mem_map]
      exact ⟨fun ⟨name,member,eq⟩ => ⟨name,member,eq.symm⟩,fun ⟨name,member,eq⟩ => ⟨name,member,eq.symm⟩⟩
    · rintro name sub ⟨_,free⟩ there
      obtain ⟨properties',given',member⟩ := child_property there
      obtain rfl : made = properties' := Option.some.inj (now.symm.trans given')
      rcases get_projected each_ name with ⟨_,none_⟩ | ⟨value,sub',_,listed,made_⟩
      · rw [none_] at member
        cases member
      · obtain rfl : sub' = sub := Value.dict.inj (Option.some.inj (listed.symm.trans member))
        have optional : Value.isIn (.str name) (requiredOf schema) = false := by
          rw [Bool.eq_false_iff]
          exact fun inside => free (isIn_str.mp inside)
        rw [optional] at made_
        obtain ⟨_,_,child_⟩ := strictChild_eq_ok made_
        exact child_.null rfl
  | same left unchanged =>
    have kept : rewritten false schema [] = false := by
      rw [rewritten]
      rcases left with other | none_
      · rw [other,Bool.false_and]
      · rw [none_]
        simp
    rw [kept,unchanged]
    exact Corresponds.refl schema

theorem ChildOf.corresponds {strict : Str → Dict → Except AdapterError Dict} {here : Str} {isRequired isRewritten : Bool}
    {canonical made out : Dict} (child_ : ChildOf strict here isRequired made out)
    (corresponds : Corresponds canonical made isRewritten) : Corresponds canonical out isRewritten := by
  have declared : declaredOf out = declaredOf made := by rw [declaredOf,declaredOf,child_.properties]
  have below : ∀ name, child out (.property name) = child made (.property name) := fun name => by
    simp only [child,child_.properties]
  refine ⟨child_.object.trans corresponds.object,fun anew => ?_,fun left => ?_⟩
  · obtain ⟨lists,closed,null⟩ := corresponds.rewritten anew
    refine ⟨?_,child_.closed.trans closed,fun name schema optional there => null name schema optional (below name ▸ there)⟩
    rw [ListsDeclared,declared,child_.required]
    exact lists
  · obtain ⟨properties,required,closed⟩ := corresponds.kept left
    exact ⟨child_.properties.trans properties,child_.required.trans required,child_.closed.trans closed⟩

theorem strictified_of_depth {n : Nat} {pointer : Str} {schema out : Dict} (deep : (Value.dict schema).depth ≤ n)
    (done : strictify n pointer schema = .ok out) : ∃ m, n = m + 1 ∧ Strictified (strictify m) pointer schema out := by
  cases n with
  | zero => exact absurd (depth_pos schema) (Nat.not_lt.mpr deep)
  | succ m => exact ⟨m,rfl,strictify_eq_ok done⟩

/-- What is left as it is has no place below a property that is written anew. -/
theorem rewritten_property_of_left {isProperty : Bool} {schema : Dict} {name : Str} {rest : List Step}
    (left : isObject schema = false ∨ propertiesOf schema = none) :
    rewritten isProperty schema (.property name::rest) = false := by
  rw [rewritten]
  rcases left with other | none_
  · rw [other,Bool.false_and]
  · simp [child,none_]

theorem Strictified.paired_property {m : Nat} {pointer : Str} {schema out : Dict} {name : Str} {rest : List Step}
    (deep : (Value.dict schema).depth ≤ m + 1) (done : Strictified (strictify m) pointer schema out)
    (below : ∀ here isRequired v q, (Value.dict v).depth ≤ m → strictChild (strictify m) here isRequired v = .ok q →
      Paired true v q rest) : Paired false schema out (.property name::rest) := by
  cases done with
  | same left unchanged =>
    subst unchanged
    exact Paired.of_eq rfl (rewritten_property_of_left left)
  | anew properties made object given each_ now =>
    refine Paired.cons true ?_
    rcases get_projected each_ name with ⟨absent,none_⟩ | ⟨value,sub,found,made_,strict⟩
    · exact Or.inl ⟨by simp [child,given,absent],by simp [child,now,none_]⟩
    · have there : child schema (.property name) = some value := by simp [child,given,found]
      have shallow := Nat.le_of_lt_succ (Nat.lt_of_lt_of_le (depth_child there) deep)
      refine Or.inr ⟨value,sub,there,by simp [child,now,made_],below _ _ _ _ shallow strict,?_⟩
      rw [rewritten,object,there,Option.any_some,Bool.true_and]

theorem Strictified.paired_items {strict : Str → Dict → Except AdapterError Dict} {pointer : Str} {schema out : Dict}
    {rest : List Step} (done : Strictified strict pointer schema out) : Paired false schema out (.items::rest) := by
  refine Paired.of_eq ?_ (by rw [rewritten,Bool.false_and])
  rw [subschema_cons,subschema_cons,child,child,done.itemsOf_eq]

theorem ChildOf.paired_property {strict : Str → Dict → Except AdapterError Dict} {here : Str} {isRequired : Bool}
    {canonical made out : Dict} {name : Str} {rest : List Step} (child_ : ChildOf strict here isRequired made out)
    (paired : Paired false canonical made (.property name::rest)) : Paired true canonical out (.property name::rest) := by
  have same : subschema out (.property name::rest) = subschema made (.property name::rest) := by
    rw [subschema_cons,subschema_cons,child,child,child_.properties]
  rw [Paired,same]
  exact paired

theorem ChildOf.paired_items {n : Nat} {here : Str} {isRequired : Bool} {value made out : Dict} {rest : List Step}
    (deep : (Value.dict value).depth ≤ n) (child_ : ChildOf (strictify n) here isRequired made out)
    (kept : itemsOf made = itemsOf value)
    (below : ∀ pointer c p, (Value.dict c).depth ≤ n → strictify n pointer c = .ok p → Paired false c p rest) :
    Paired true value out (.items::rest) := by
  refine Paired.cons false ?_
  rcases child_.items with ⟨absent,none_⟩ | ⟨items,strict,given,now,done⟩
  · exact Or.inl ⟨kept.symm.trans absent,none_⟩
  · have there : child value .items = some items := kept.symm.trans given
    refine Or.inr ⟨items,strict,there,now,below _ _ _ ((Nat.le_of_lt (depth_child there)).trans deep) done,?_⟩
    rw [rewritten,show itemsOf value = some items from there,Option.any_some,Bool.true_and]

/-- The projection is paired with its schema at every place: of a schema, and of a property's schema. -/
theorem strictify_paired (place : List Step) :
    (∀ n pointer c p, (Value.dict c).depth ≤ n → strictify n pointer c = .ok p → Paired false c p place) ∧
    (∀ n here isRequired v q, (Value.dict v).depth ≤ n → strictChild (strictify n) here isRequired v = .ok q →
      Paired true v q place) := by
  induction place with
  | nil =>
    refine ⟨fun n pointer c p deep done => ?_,fun n here isRequired v q deep done => ?_⟩
    · obtain ⟨_,_,strictified⟩ := strictified_of_depth deep done
      exact Or.inr ⟨c,p,rfl,rfl,strictified.corresponds⟩
    · obtain ⟨made,first,child_⟩ := strictChild_eq_ok done
      obtain ⟨_,_,strictified⟩ := strictified_of_depth deep first
      exact Or.inr ⟨v,q,rfl,rfl,child_.corresponds strictified.corresponds⟩
  | cons s rest ih =>
    obtain ⟨schemas,children⟩ := ih
    have whole : ∀ n pointer c p, (Value.dict c).depth ≤ n → strictify n pointer c = .ok p → Paired false c p (s::rest) := by
      intro n pointer c p deep done
      obtain ⟨m,rfl,strictified⟩ := strictified_of_depth deep done
      cases s with
      | property name => exact strictified.paired_property deep (children m)
      | items => exact strictified.paired_items
    refine ⟨whole,fun n here isRequired v q deep done => ?_⟩
    obtain ⟨made,first,child_⟩ := strictChild_eq_ok done
    cases s with
    | property name => exact child_.paired_property (whole n here v made deep first)
    | items =>
      obtain ⟨_,_,strictified⟩ := strictified_of_depth deep first
      exact child_.paired_items deep strictified.itemsOf_eq (schemas n)

end Places

section Tools

theorem get_without (d : Dict) {key : Str} {excluded : List Str} (free : key ∉ excluded) :
    Dict.get (Dict.without d excluded) key = Dict.get d key := by
  unfold Dict.get Dict.without
  congr 1
  induction d with
  | nil => rfl
  | cons m rest ih =>
    rw [List.filter_cons]
    by_cases out : m.1 ∈ excluded
    · have apart : m.1 ≠ key := fun same => free (same ▸ out)
      rw [if_neg (by simpa using out),Assoc.get_cons,if_neg apart,ih]
    · rw [if_pos (by simpa using out),Assoc.get_cons,Assoc.get_cons,ih]

/-- Schemas that differ in the dialect marker alone. -/
structure SameShape (s t : Dict) : Prop where
  type : Dict.get s "type" = Dict.get t "type"
  properties : propertiesOf s = propertiesOf t
  items : itemsOf s = itemsOf t
  required : requiredOf s = requiredOf t
  closed : Dict.get s "additionalProperties" = Dict.get t "additionalProperties"

theorem sameShape_without (schema : Dict) : SameShape (Dict.without schema ["$schema"]) schema :=
  ⟨get_without schema (by decide),propertiesOf_congr (get_without schema (by decide)),
    itemsOf_congr (get_without schema (by decide)),requiredOf_congr (get_without schema (by decide)),
    get_without schema (by decide)⟩

theorem SameShape.child {s t : Dict} (same : SameShape s t) (step : Step) : child s step = child t step := by
  cases step with
  | property name => rw [Adapters.child,Adapters.child,same.properties]
  | items => exact same.items

theorem SameShape.rewritten {s t : Dict} (same : SameShape s t) (isProperty : Bool) (place : List Step) :
    rewritten isProperty s place = rewritten isProperty t place := by
  have object : isObject s = isObject t := by rw [isObject,isObject,same.type]
  cases place with
  | nil => rw [Adapters.rewritten,Adapters.rewritten,object,same.properties]
  | cons step rest =>
    cases step with
    | property name => rw [Adapters.rewritten,Adapters.rewritten,object,same.child]
    | items => rw [Adapters.rewritten,Adapters.rewritten,same.items]

theorem Corresponds.of_same {s t projected : Dict} {isRewritten : Bool} (same : SameShape s t)
    (corresponds : Corresponds s projected isRewritten) : Corresponds t projected isRewritten := by
  refine ⟨corresponds.object.trans (AdmitsObject.congr same.type),fun anew => ?_,fun left => ?_⟩
  · obtain ⟨lists,closed,null⟩ := corresponds.rewritten anew
    refine ⟨lists,closed,fun name schema optional => null name schema ?_⟩
    rw [IsOptional,declaredOf,same.properties,same.required]
    exact optional
  · obtain ⟨properties,required,closed⟩ := corresponds.kept left
    exact ⟨properties.trans same.properties,required.trans same.required,closed.trans same.closed⟩

theorem Paired.of_same {s t projected : Dict} {place : List Step} (same : SameShape s t)
    (paired : Paired false s projected place) : Paired false t projected place := by
  unfold Paired at paired ⊢
  rw [same.rewritten] at paired
  cases place with
  | nil =>
    rcases paired with ⟨none_,_⟩ | ⟨original,sub,first,second,corresponds⟩
    · cases none_
    · obtain rfl : s = original := Option.some.inj first
      exact Or.inr ⟨t,sub,rfl,second,corresponds.of_same same⟩
  | cons step rest =>
    rw [subschema_cons,same.child,← subschema_cons] at paired
    exact paired

/-- What every round of `assert_projectable` leaves of a subschema. -/
structure Projectable (schema : Dict) : Prop where
  type : badType (Dict.get schema "type") = false
  closed : isObject schema = true → Dict.get schema "additionalProperties" = .bool false

theorem Projectable.isObject {schema : Dict} (projectable : Projectable schema) (admits : AdmitsObject schema) :
    isObject schema = true := by
  rcases admits with one | ⟨types,given,_⟩
  · exact isObject_iff.mpr one
  · have typed := projectable.type
    rw [given] at typed
    cases typed

theorem walkSchema_head (fuel : Nat) (pointer : Str) (schema : Dict) : (pointer,schema) ∈ walkSchema fuel pointer schema := by
  cases fuel <;> simp [walkSchema]

/-- Every subschema is on the walk. -/
theorem mem_walk {place : List Step} {schema sub : Dict} {fuel : Nat} {pointer : Str}
    (deep : (Value.dict schema).depth ≤ fuel) (there : subschema schema place = some sub) :
    ∃ here, (here,sub) ∈ walkSchema fuel pointer schema := by
  induction place generalizing schema fuel pointer with
  | nil =>
    obtain rfl : schema = sub := Option.some.inj there
    exact ⟨pointer,walkSchema_head fuel pointer schema⟩
  | cons s rest ih =>
    rw [subschema_cons] at there
    obtain ⟨below,one,later⟩ := Option.bind_eq_some_iff.mp there
    have shallow := Nat.lt_of_lt_of_le (depth_child one) deep
    obtain ⟨m,rfl⟩ : ∃ m, fuel = m + 1 := ⟨fuel - 1,by omega⟩
    rw [walkSchema]
    cases s with
    | property name =>
      obtain ⟨properties,given,member⟩ := child_property one
      obtain ⟨here,inside⟩ := @ih below m (propertyPointer pointer name) (Nat.le_of_lt_succ shallow) later
      refine ⟨here,List.mem_cons_of_mem _ (List.mem_append_left _ ?_)⟩
      rw [given,Option.getD_some]
      exact List.mem_flatMap.mpr ⟨(name,.dict below),Assoc.mem_of_get member,inside⟩
    | items =>
      obtain ⟨here,inside⟩ := @ih below m (itemsPointer pointer) (Nat.le_of_lt_succ shallow) later
      refine ⟨here,List.mem_cons_of_mem _ (List.mem_append_right _ ?_)⟩
      rw [show itemsOf schema = some below from one]
      exact inside

theorem projectable_of_check [Unicode] {total next : Nat} {pointer : Str} {schema : Dict}
    (passed : checkSubschema total (pointer,schema) = .ok next) : Projectable schema := by
  obtain ⟨_,_,passed⟩ := bind_eq_ok.mp passed
  obtain ⟨_,_,passed⟩ := bind_eq_ok.mp passed
  obtain ⟨_,typed,passed⟩ := bind_eq_ok.mp passed
  obtain ⟨_,closed,_⟩ := bind_eq_ok.mp passed
  refine ⟨refuse_eq_ok.mp typed,fun object => ?_⟩
  have sealed := refuse_eq_ok.mp closed
  rw [object,Bool.true_and] at sealed
  unfold isOpen at sealed
  split at sealed
  next given => exact given
  next => cases sealed

/-- Where an object is left as it is, it is strict only if it was. -/
theorem strictElsewhere_of_everywhere {canonical parameters : Dict} (paired : ∀ place, Paired false canonical parameters place)
    (strict : StrictEverywhere canonical parameters) : StrictElsewhere canonical := by
  intro place original there object left
  rcases paired place with ⟨none_,_⟩ | ⟨original',sub,same,projected,corresponds⟩
  · cases there.symm.trans none_
  · obtain rfl : original = original' := Option.some.inj (there.symm.trans same)
    obtain ⟨properties,required,_⟩ := corresponds.kept left
    obtain ⟨again,now,at_⟩ := strict place sub projected
    have lists := (at_.object (corresponds.object.mpr (Or.inl (isObject_iff.mp object)))).1
    rw [ListsDeclared,declaredOf,properties,required] at lists
    exact lists

theorem strictEverywhere_of_elsewhere {canonical parameters : Dict} (paired : ∀ place, Paired false canonical parameters place)
    (projectable : ∀ place sub, subschema canonical place = some sub → Projectable sub)
    (strict : StrictElsewhere canonical) : StrictEverywhere canonical parameters := by
  intro place sub there
  rcases paired place with ⟨_,none_⟩ | ⟨original,sub',canon,same,corresponds⟩
  · cases there.symm.trans none_
  · obtain rfl : sub = sub' := Option.some.inj (there.symm.trans same)
    refine ⟨original,canon,?_⟩
    have projectable := projectable place original canon
    cases anew : rewritten false canonical place with
    | true =>
      obtain ⟨lists,closed,null⟩ := corresponds.rewritten anew
      exact ⟨fun _ => ⟨lists,closed⟩,fun _ => null⟩
    | false =>
      obtain ⟨properties,required,closed⟩ := corresponds.kept anew
      refine ⟨fun admits => ⟨?_,?_⟩,fun admits name schema optional => ?_⟩
      · have lists := strict place original canon (projectable.isObject (corresponds.object.mp admits)) anew
        rw [ListsDeclared,declaredOf,properties,required]
        exact lists
      · exact closed.trans (projectable.closed (projectable.isObject (corresponds.object.mp admits)))
      · have lists := strict place original canon (projectable.isObject admits) anew
        exact absurd ((lists _).mpr ⟨name,optional.1,rfl⟩) optional.2

variable [Unicode] [Pydantic]

theorem projected_paired {tool : ToolDefinition} {parameters : Dict} (projected : projectedParameters tool = .ok parameters)
    (place : List Step) : Paired false tool.inputSchema parameters place := by
  obtain ⟨_,_,strict⟩ := bind_eq_ok.mp projected
  exact ((strictify_paired place).1 _ _ _ _ le_rfl strict).of_same (sameShape_without tool.inputSchema)

theorem projectable_of_projected {tool : ToolDefinition} {parameters : Dict}
    (projected : projectedParameters tool = .ok parameters) {place : List Step} {sub : Dict}
    (there : subschema tool.inputSchema place = some sub) : Projectable sub := by
  obtain ⟨_,asserted,_⟩ := bind_eq_ok.mp projected
  obtain ⟨total,looped,_⟩ := bind_eq_ok.mp asserted
  obtain ⟨here,inside⟩ := @mem_walk place tool.inputSchema sub (Value.dict tool.inputSchema).depth [] le_rfl there
  obtain ⟨_,_,passed⟩ := step_of_loop looped inside
  exact projectable_of_check passed

/-- A strict projection is strict everywhere exactly when the objects it does not reach are strict already. -/
theorem strict_iff {tool : ToolDefinition} {payload : Dict} (projected : projectTool tool = .ok payload) :
    ∃ function parameters, Dict.get payload "function" = .dict function ∧
      Dict.get function "parameters" = .dict parameters ∧
      (StrictEverywhere tool.inputSchema parameters ↔ StrictElsewhere tool.inputSchema) := by
  obtain ⟨parameters,made,done⟩ := bind_eq_ok.mp projected
  cases done
  have paired := projected_paired made
  exact ⟨_,parameters,rfl,rfl,strictElsewhere_of_everywhere paired,
    strictEverywhere_of_elsewhere paired (fun _ _ there => projectable_of_projected made there)⟩

end Tools

section Grid

local instance gridUnicode : Unicode := Unicode.asciiOnly
local instance gridPydantic : Pydantic := Pydantic.exact

def gridCell : Dict :=
  [("type",.str "object"),("properties",.dict [("note",.dict [("type",.str "string")])]),("required",.list []),
    ("additionalProperties",.bool false)]

def gridSchema : Dict :=
  [("$schema",.str ToolDefinition.dialect),("type",.str "object"),
    ("properties",.dict [("grid",.dict [("type",.str "array"),
      ("items",.dict [("type",.str "array"),("items",.dict gridCell)])])]),
    ("required",.list [.str "grid"]),("additionalProperties",.bool false)]

/-- A tool whose argument is an array of arrays of objects with an optional field. -/
def gridTool : ToolDefinition where
  toolName := "put_grid"
  displayName := "Put grid"
  description := "Stores a grid."
  inputSchema := gridSchema
  operation := ⟨.post,"/grid",[⟨"/grid",.body,"/grid",by decide +kernel⟩],true,by decide +kernel⟩
  policy := ⟨.write,true,ToolAccessPolicy.unrestricted⟩
  provenance := ⟨none,"/grid",.post,[],false,.generated,by decide +kernel⟩
  accepted := by decide +kernel

def gridParameters : Dict := Dict.without gridSchema ["$schema"]

def gridPayload : Dict :=
  [("type",.str "function"),
    ("function",.dict [("name",.str "put_grid"),("description",.str "Stores a grid."),("parameters",.dict gridParameters),
      ("strict",.bool true)])]

theorem grid_projected : projectTool gridTool = .ok gridPayload := by rfl

theorem strict_iff_grid : projectTool gridTool = .ok gridPayload ∧ ∃ function parameters,
    Dict.get gridPayload "function" = .dict function ∧ Dict.get function "parameters" = .dict parameters ∧
      (StrictEverywhere gridTool.inputSchema parameters ↔ StrictElsewhere gridTool.inputSchema) :=
  ⟨grid_projected,strict_iff grid_projected⟩

/-- The optional field of the innermost objects is not required in the projection. -/
theorem nested_items_not_strict : ∃ payload function parameters, projectTool gridTool = .ok payload ∧
    Dict.get payload "function" = .dict function ∧ Dict.get function "parameters" = .dict parameters ∧
      ¬ StrictEverywhere gridTool.inputSchema parameters := by
  refine ⟨gridPayload,_,gridParameters,grid_projected,rfl,rfl,fun strict => ?_⟩
  obtain ⟨_,_,at_⟩ := strict [.property "grid",.items,.items] gridCell rfl
  obtain ⟨lists,_⟩ := at_.object (Or.inl rfl)
  have required : Value.str "note" ∈ requiredOf gridCell := (lists _).mpr ⟨"note",by decide,rfl⟩
  cases required

end Grid

end ToolLayer.Adapters
