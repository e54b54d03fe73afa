import ToolLayer.Contracts.Agreement

/-! What the contract models still ask of a document that its schema accepts and whose
texts have no lone surrogates. -/
namespace ToolLayer
open Python Kit Kit.Result

namespace Sides

/-- The model asks no more of a value without lone surrogates than the schema does. -/
def Tame (s : Sides) : Prop := ∀ v : Value, v.scalar = true → s.secondOnly v

variable {v : Value} {s t : Sides} {fields : List (Str × Sides)} {low high : Nat} {exact : Str → Bool}

theorem scalar_of_get {d : Dict} {name : Str} {w : Value} (plain : Value.scalar (.dict d) = true)
    (found : Assoc.get name d = some w) : w.scalar = true :=
  (Value.every_dict.mp plain _ (Assoc.mem_of_get found)).2

theorem scalar_of_item {values : List Value} {w : Value} (plain : Value.scalar (.list values) = true)
    (member : w ∈ values) : w.scalar = true := Value.every_list.mp plain w member

theorem object_secondOnly : (object fields).secondOnly v ↔
    ∀ f ∈ fields, ∀ d w, v = .dict d → Assoc.get f.1 d = some w → f.2.secondOnly w := by
  have closed_ : (object fields).secondOnly v ↔ (members fields).secondOnly v := and_iff_right trivial
  rw [closed_]
  simp only [members,TwoSided.conj,List.forall_mem_map]
  refine forall₂_congr (fun f _ => ?_)
  constructor
  · rintro rest d w rfl found
    exact rest w found
  · intro rest w found
    cases v with
    | dict d => exact rest d w rfl found
    | _ => cases found

theorem list_secondOnly : (list s).secondOnly v ↔ ∀ w ∈ v.items, s.secondOnly w := and_iff_right trivial

theorem Tame.same {check : Value → Prop} : Tame (TwoSided.same check) := fun _ _ => trivial

theorem Tame.schemaOnly {p : Value → Prop} : Tame (schemaOnly p) := fun _ _ => trivial

theorem Tame.and (first : Tame s) (second : Tame t) : Tame (s.and t) :=
  fun v plain => ⟨first v plain,second v plain⟩

theorem Tame.excusing {excused : Value → Prop} (tame : Tame s) : Tame (TwoSided.excusing excused s) :=
  fun v plain _ => tame v plain

theorem Tame.object (each : ∀ f ∈ fields, Tame f.2) : Tame (object fields) := by
  intro v plain
  rw [object_secondOnly]
  rintro f member d w rfl found
  exact each f member w (scalar_of_get plain found)

theorem Tame.list (tame : Tame s) : Tame (list s) := by
  intro v plain
  rw [list_secondOnly]
  intro w member
  cases v with
  | list values => exact tame w (scalar_of_item plain member)
  | _ => cases member

theorem Tame.text : Tame (text low high) := by
  rintro v plain s rfl
  exact plain

theorem Tame.reference : Tame (reference exact) := (Tame.text.and .schemaOnly).excusing

theorem matching_secondOnly : (matching low high exact).secondOnly v ↔
    ∀ s, v = .str s → s.scalar = true ∧ exact s = true := by
  simp only [matching,TwoSided.and,text,TwoSided.ofParts]
  grind

theorem pattern_secondOnly : (pattern exact).secondOnly v ↔ ∀ s, v = .str s → s.scalar = true ∧ exact s = true := Iff.rfl

variable [Pydantic]

theorem Tame.boolean : Tame boolean := fun _ _ => trivial

theorem Tame.plain : Tame plain := by
  rintro v scalar s rfl
  exact Pydantic.plainText_scalar s scalar

theorem Tame.words : Tame words := by
  intro v scalar s member
  cases v with
  | list values => exact Pydantic.plainText_scalar s (scalar_of_item scalar member)
  | _ => cases member

theorem Tame.toolProvenance : Tame toolProvenance := by
  refine Tame.object ?_
  simp only [List.forall_mem_cons]
  exact ⟨.reference,.text,.same,.words,.boolean,.same,by simp⟩

theorem Tame.auditTimestamps : Tame auditTimestamps := by
  refine Tame.object ?_
  simp only [List.forall_mem_cons]
  exact ⟨.plain,.plain,.excusing .plain,by simp⟩

omit [Pydantic] in
theorem Tame.toolInputSchema : Tame toolInputSchema := fun _ _ => trivial

theorem positive_secondOnly {n : Nat} (least : 1 ≤ n) : positive.secondOnly (.int n) :=
  ⟨n,Pydantic.laxInt_int n,by exact_mod_cast least⟩

/-- What a tool model asks of such a tool: a name on one line, and an operation and a
policy that their models accept, over arguments its input schema declares. -/
theorem toolShape_secondOnly {d : Dict} (plain : Value.scalar (.dict d) = true)
    (name : ∀ s, Assoc.get (Str.lit "tool_name") d = some (.str s) → Patterns.toolName s = true)
    (operation : ∀ w, Assoc.get (Str.lit "operation") d = some w → toolOperation.secondOnly w)
    (policy : ∀ w, Assoc.get (Str.lit "policy") d = some w → toolPolicy.secondOnly w)
    (declared : ArgumentsDeclared (.dict d)) : toolShape.secondOnly (.dict d) := by
  refine ⟨object_secondOnly.mpr ?_,declared⟩
  have tame {f : Sides} (rest : Tame f) : ∀ {k : Str} (e : Dict) (w : Value), Value.dict d = .dict e →
      Assoc.get k e = some w → f.secondOnly w := by
    rintro k _ w ⟨⟩ found
    exact rest w (scalar_of_get plain found)
  simp only [List.forall_mem_cons]
  refine ⟨?_,tame .text,tame .text,tame .toolInputSchema,?_,?_,tame .toolProvenance,by simp⟩
  · rintro _ w ⟨⟩ found
    refine matching_secondOnly.mpr ?_
    rintro s rfl
    exact ⟨scalar_of_get plain found,name s found⟩
  · rintro _ w ⟨⟩ found
    exact operation w found
  · rintro _ w ⟨⟩ found
    exact policy w found

variable [Unicode]

omit [Unicode] in
theorem tools_secondOnly : tools.secondOnly v ↔ ∀ t ∈ v.items, toolShape.secondOnly t := by
  refine (and_iff_left trivial).trans ((and_iff_left trivial).trans list_secondOnly)

/-- What the model of a connector asks of such a document: keys, versions and the digest
exactly as their patterns have them, an origin that `urlsplit` reads, and the tools' part. -/
theorem connectorShape_secondOnly {d runtime source : Dict} {n : Nat} {url contract key version digest : Str}
    (plain : Value.scalar (.dict d) = true)
    (contracted : Assoc.get (Str.lit "contract_version") d = some (.str contract)) (release : Patterns.semver contract = true)
    (keyed : Assoc.get (Str.lit "connector_key") d = some (.str key)) (resource : Patterns.key key = true)
    (numbered : Assoc.get (Str.lit "version") d = some (.str version)) (semver : Patterns.semver version = true)
    (runs : Assoc.get (Str.lit "runtime") d = some (.dict runtime))
    (origin : Assoc.get (Str.lit "base_url") runtime = some (.str url))
    (comes : Assoc.get (Str.lit "source") d = some (.dict source))
    (digested : Assoc.get (Str.lit "document_digest") source = some (.str digest)) (hashed : Patterns.digest digest = true)
    (sized : Assoc.get (Str.lit "byte_length") source = some (.int n)) (least : 1 ≤ n)
    (each : ∀ w, Assoc.get (Str.lit "tools") d = some w → ∀ t ∈ w.items, toolShape.secondOnly t) :
    connectorShape.secondOnly (.dict d) ↔ reviewedOrigin url = true := by
  have tame {f : Sides} (rest : Tame f) {e : Dict} (inside : Value.scalar (.dict e) = true) : ∀ {k : Str} (e' : Dict)
      (w : Value), Value.dict e = .dict e' → Assoc.get k e' = some w → f.secondOnly w := by
    rintro k _ w ⟨⟩ found
    exact rest w (scalar_of_get inside found)
  have matched {low high : Nat} {exact : Str → Bool} {k s : Str} (found : Assoc.get k d = some (.str s))
      (taken : exact s = true) : ∀ (e : Dict) (w : Value), Value.dict d = .dict e → Assoc.get k e = some w →
        (matching low high exact).secondOnly w := by
    rintro _ w ⟨⟩ there
    cases found.symm.trans there
    refine matching_secondOnly.mpr ?_
    rintro _ ⟨⟩
    exact ⟨scalar_of_get plain found,taken⟩
  have runtimePlain := scalar_of_get plain runs
  have sourcePlain := scalar_of_get plain comes
  have hash : sourceProvenance.secondOnly (.dict source) := by
    refine object_secondOnly.mpr ?_
    simp only [List.forall_mem_cons]
    refine ⟨tame .same sourcePlain,tame .text sourcePlain,tame .text sourcePlain,?_,?_,by simp⟩
    · rintro _ w ⟨⟩ there
      cases digested.symm.trans there
      rintro _ ⟨⟩
      exact ⟨scalar_of_get sourcePlain digested,hashed⟩
    · rintro _ w ⟨⟩ there
      cases sized.symm.trans there
      exact positive_secondOnly least
  have address : runtimeBinding.secondOnly (.dict runtime) ↔ reviewedOrigin url = true := by
    rw [runtimeBinding,object_secondOnly]
    simp only [List.forall_mem_cons]
    constructor
    · rintro ⟨_,rest,_⟩
      exact (rest runtime (.str url) rfl origin).2 url rfl
    · intro reviewed
      refine ⟨tame .same runtimePlain,?_,tame .reference runtimePlain,by simp⟩
      rintro _ w ⟨⟩ there
      cases origin.symm.trans there
      refine ⟨(Tame.text.and .schemaOnly) _ (scalar_of_get runtimePlain origin),?_⟩
      rintro _ ⟨⟩
      exact reviewed
  rw [connectorShape,object_secondOnly]
  simp only [List.forall_mem_cons]
  constructor
  · rintro ⟨_,_,_,_,_,_,rest,_⟩
    exact address.mp (rest d _ rfl runs)
  · intro reviewed
    refine ⟨matched contracted release,matched keyed resource,tame .text plain,tame .text plain,matched numbered semver,
      tame .same plain,?_,?_,?_,tame .words plain,tame .auditTimestamps plain,by simp⟩
    · rintro _ w ⟨⟩ there
      cases runs.symm.trans there
      exact address.mpr reviewed
    · rintro _ w ⟨⟩ there
      cases comes.symm.trans there
      exact hash
    · rintro _ w ⟨⟩ there
      exact tools_secondOnly.mpr (each w there)

omit [Unicode] [Pydantic] in
/-- A schema that checks no timestamps accepts what another one accepts. -/
theorem connectorDefinition_formats {engine : SchemaEngine} (valid : Schemas.connectorDefinition engine v = []) :
    Schemas.connectorDefinition { engine with dateTime := fun _ => true } v = [] := by
  obtain ⟨d,rfl,known,each⟩ := Rule.object_eq_nil.mp valid
  simp only [List.forall_mem_cons] at each
  obtain ⟨contract,key,display,summary,version,state,runtime,source,tools,labels,⟨audit,found,dated⟩,_⟩ := each
  refine Rule.object_eq_nil.mpr ⟨d,rfl,known,?_⟩
  simp only [List.forall_mem_cons]
  refine ⟨contract,key,display,summary,version,state,runtime,source,tools,labels,⟨audit,found,?_⟩,by simp⟩
  obtain ⟨a,rfl,names,stamps⟩ := Rule.object_eq_nil.mp dated
  simp only [List.forall_mem_cons] at stamps
  obtain ⟨⟨created,createdFound,createdAt⟩,⟨updated,updatedFound,updatedAt⟩,⟨published,publishedFound,publishedAt⟩,_⟩ := stamps
  refine Rule.object_eq_nil.mpr ⟨a,rfl,names,?_⟩
  simp only [List.forall_mem_cons]
  have loosened {types : List JsonType} {w : Value}
      (accepted : Rule.all [Rule.type types,Rule.format engine.dateTime] w = []) :
      Rule.all [Rule.type types,Rule.format (fun _ => true)] w = [] := by
    rw [Rule.all_cons_eq_nil] at accepted ⊢
    refine ⟨accepted.1,?_⟩
    cases w <;> simp [Rule.format,Rule.all,Rule.onText]
  exact ⟨⟨created,createdFound,loosened createdAt⟩,⟨updated,updatedFound,loosened updatedAt⟩,
    ⟨published,publishedFound,loosened publishedAt⟩,by simp⟩

omit [Unicode] in
theorem connectorShape_of_valid [Unicode] {engine : SchemaEngine} (valid : Schemas.connectorDefinition engine v = []) :
    connectorShape.first v :=
  (connectorShape_first { engine with dateTime := fun _ => true } (fun _ => rfl)).mp (connectorDefinition_formats valid)

end Sides

end ToolLayer
