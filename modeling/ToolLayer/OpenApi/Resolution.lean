import ToolLayer.OpenApi.References

/-! What resolution leaves behind: no reference, nothing to resolve again, and, where no
sibling says otherwise, what the target demands. -/
namespace ToolLayer.OpenApi
open Python Kit Kit.Result

/-- The nodes of a tree, the root included. -/
inductive Node (root : Value) : Value → Prop where
  | root : Node root root
  | item {items : List Value} {item : Value} (inside : Node root (.list items)) (member : item ∈ items) : Node root item
  | entry {members : Dict} {m : Str × Value} (inside : Node root (.dict members)) (member : m ∈ members) :
    Node root m.2

/-- A tree of so many levels at most, whose references are all null. -/
inductive Inlined : Nat → Value → Prop where
  | leaf {levels : Nat} {v : Value} (noDict : ∀ members, v ≠ .dict members) (noList : ∀ items, v ≠ .list items) :
    Inlined (levels + 1) v
  | list {levels : Nat} {items : List Value} (each : ∀ item ∈ items, Inlined levels item) :
    Inlined (levels + 1) (.list items)
  | dict {levels : Nat} {members : Dict} (plain : Dict.get members "$ref" = .null)
    (each : ∀ m ∈ members, Inlined levels m.2) : Inlined (levels + 1) (.dict members)

theorem Inlined.step {levels : Nat} {v : Value} (settled : Inlined levels v) : Inlined (levels + 1) v := by
  induction settled with
  | leaf noDict noList => exact .leaf noDict noList
  | list _ ih => exact .list ih
  | dict plain _ ih => exact .dict plain ih

theorem Inlined.node {levels : Nat} {v w : Value} (settled : Inlined levels v) (inside : Node v w) :
    ∃ deeper, Inlined deeper w := by
  induction inside with
  | root => exact ⟨levels,settled⟩
  | item _ member ih =>
    obtain ⟨deeper,held⟩ := ih
    cases held with
    | leaf _ noList => exact absurd rfl (noList _)
    | list each => exact ⟨_,each _ member⟩
  | entry _ member ih =>
    obtain ⟨deeper,held⟩ := ih
    cases held with
    | leaf noDict _ => exact absurd rfl (noDict _)
    | dict _ each => exact ⟨_,each _ member⟩

/-- The two exceptions resolution may end with. -/
def Refusal (e : PyExc) : Prop :=
  ∃ message pointer, e = invalidDocument message pointer ∨ e = unsupportedFeature message pointer

theorem refusal_invalid (message pointer : Str) : Refusal (invalidDocument message pointer) :=
  ⟨message,pointer,Or.inl rfl⟩

theorem refusal_unsupported (message pointer : Str) : Refusal (unsupportedFeature message pointer) :=
  ⟨message,pointer,Or.inr rfl⟩

theorem only_referencePointer (reference : Value) (pointer : Str) : Only Refusal (referencePointer reference pointer) := by
  unfold referencePointer
  split
  · split
    · exact only_ok _
    · exact only_error (refusal_unsupported _ _)
  · exact only_error (refusal_invalid _ _)

section Resolver

variable [Unicode]

theorem only_dereference (document : Dict) (target origin : Str) : Only Refusal (dereference document target origin) := by
  apply only_loop
  intro current token _
  unfold descend
  dsimp only
  split
  · split
    · exact only_ok _
    · exact only_error (refusal_invalid _ _)
  · split
    · exact only_error (refusal_invalid _ _)
    · split
      · exact only_error (refusal_invalid _ _)
      · split
        · exact only_ok _
        · exact only_error (refusal_invalid _ _)
  · exact only_error (refusal_invalid _ _)

variable (document : Dict)

theorem only_resolveNode (levels : Nat) (node : Value) (pointer : Str) (seen : List Str) :
    Only Refusal (resolveNode document levels node pointer seen) := by
  induction levels generalizing node pointer seen with
  | zero => exact only_error (refusal_unsupported _ _)
  | succ levels ih =>
    unfold resolveNode
    split
    next members =>
      split
      next =>
        refine only_bind (only_each (fun entry _ => ?_)) (fun _ _ => only_ok _)
        exact only_bind (ih _ _ _) (fun _ _ => only_ok _)
      next =>
        refine only_bind (only_referencePointer _ _) (fun target _ => ?_)
        refine only_bind (only_refuse (fun _ => refusal_unsupported _ _)) (fun _ _ => ?_)
        refine only_bind (only_dereference _ _ _) (fun found _ => ?_)
        refine only_bind (ih _ _ _) (fun resolved _ => ?_)
        split
        · exact only_ok _
        · refine only_bind (only_loop (fun merged entry _ => ?_)) (fun _ _ => only_ok _)
          exact only_bind (ih _ _ _) (fun _ _ => only_ok _)
        · exact only_ok _
    next items =>
      exact only_bind (only_each (fun item _ => ih _ _ _)) (fun _ _ => only_ok _)
    next => exact only_ok _

omit [Unicode] in
/-- Entries rebuilt in place are found where they were. -/
theorem get_forall₂ {R : Str → Value → Value → Prop} {before after : Dict}
    (rebuilt : List.Forall₂ (fun m n => n.1 = m.1 ∧ R m.1 m.2 n.2) before after) (key : Str) :
    Option.Rel (R key) (Assoc.get key before) (Assoc.get key after) := by
  induction rebuilt with
  | nil => exact .none
  | cons first _ ih =>
    rw [Assoc.get_cons,Assoc.get_cons,first.1]
    split
    next same => exact .some (same ▸ first.2)
    next => exact ih

variable {document}

/-- The entries of an object that is no reference, each resolved in its place. -/
theorem forall₂_of_each {levels : Nat} {members entries : Dict} {pointer : Str} {seen : List Str}
    (built : each (fun entry : Str × Value => (do
      let value ← resolveNode document levels entry.2 (childPointer pointer entry.1) seen
      return (entry.1,value) : Except PyExc (Str × Value))) members = .ok entries) :
    List.Forall₂ (fun m n => n.1 = m.1 ∧
      resolveNode document levels m.2 (childPointer pointer m.1) seen = .ok n.2) members entries := by
  refine (each_eq_ok.mp built).imp (fun m n done => ?_)
  obtain ⟨value,resolved,same⟩ := bind_eq_ok.mp done
  cases same
  exact ⟨rfl,resolved⟩

omit [Unicode] in
theorem overlay_eq_ok {nested : Str → Value → Except PyExc Value} {merged next : Dict} {entry : Str × Value}
    (done : overlay nested merged entry = .ok next) :
    ∃ value, nested entry.1 entry.2 = .ok value ∧ next = Dict.set merged entry.1 value := by
  obtain ⟨value,resolved,same⟩ := bind_eq_ok.mp done
  exact ⟨value,resolved,(Except.ok.inj same).symm⟩

omit [Unicode] in
theorem not_reference_of_sibling {members : Dict} {entry : Str × Value}
    (member : entry ∈ members.filter (fun entry => entry.1 != Str.lit "$ref")) : entry.1 ≠ Str.lit "$ref" := by
  simpa using (List.mem_filter.mp member).2

theorem settled_resolveNode {levels : Nat} {node result : Value} {pointer : Str} {seen : List Str}
    (resolved : resolveNode document levels node pointer seen = .ok result) : Inlined levels result := by
  induction levels generalizing node result pointer seen with
  | zero => cases resolved
  | succ levels ih =>
    unfold resolveNode at resolved
    split at resolved
    next members =>
      split at resolved
      next plain =>
        obtain ⟨entries,built,same⟩ := bind_eq_ok.mp resolved
        cases same
        have rebuilt := forall₂_of_each built
        refine .dict ?_ (fun n member => ?_)
        · -- a null reference stays one, and none is added
          have found := get_forall₂ (R := fun key v w =>
            resolveNode document levels v (childPointer pointer key) seen = .ok w) rebuilt (Str.lit "$ref")
          unfold Dict.get at plain ⊢
          cases before : Assoc.get (Str.lit "$ref") members with
          | none =>
            rw [before] at found
            cases after : Assoc.get (Str.lit "$ref") entries with
            | none => rfl
            | some other =>
              rw [after] at found
              cases found
          | some value =>
            rw [before,Option.getD_some] at plain
            rw [before,plain] at found
            cases after : Assoc.get (Str.lit "$ref") entries with
            | none =>
              rw [after] at found
              cases found
            | some other =>
              rw [after] at found
              cases found with
              | some done =>
                cases levels with
                | zero => cases done
                | succ _ => exact (Except.ok.inj done).symm
        · obtain ⟨m,_,_,done⟩ := exists_left rebuilt member
          exact ih done
      next =>
        obtain ⟨target,_,resolved⟩ := bind_eq_ok.mp resolved
        obtain ⟨_,resolved⟩ := refuse_bind_eq_ok.mp resolved
        obtain ⟨found,_,resolved⟩ := bind_eq_ok.mp resolved
        obtain ⟨base,inlined,resolved⟩ := bind_eq_ok.mp resolved
        have settled := ih inlined
        split at resolved
        · cases resolved
          exact settled.step
        next base _ =>
          obtain ⟨merged,overlaid,same⟩ := bind_eq_ok.mp resolved
          cases same
          have start : Dict.get base "$ref" = .null ∧ ∀ m ∈ base, Inlined levels m.2 := by
            cases settled with
            | leaf noDict _ => exact absurd rfl (noDict _)
            | dict plain each => exact ⟨plain,fun m member => (each m member).step⟩
          have kept := loop_keeps (fun d : Dict => Dict.get d "$ref" = .null ∧ ∀ m ∈ d, Inlined levels m.2)
            (fun before entry after member held done => ?_) start overlaid
          · exact .dict kept.1 kept.2
          · obtain ⟨value,nested,rfl⟩ := overlay_eq_ok done
            refine ⟨?_,fun m inside => ?_⟩
            · rw [Dict.get,Dict.set,Assoc.get_set_other _ _ (not_reference_of_sibling member)]
              exact held.1
            · rcases Assoc.mem_set inside with rfl | old
              · exact ih nested
              · exact held.2 m old
        · cases resolved
          exact settled.step
    next items =>
      obtain ⟨built,all,same⟩ := bind_eq_ok.mp resolved
      cases same
      refine .list (fun item member => ?_)
      obtain ⟨_,_,done⟩ := exists_left (each_eq_ok.mp all) member
      exact ih done
    next noDict noList =>
      cases resolved
      exact .leaf noDict noList

omit [Unicode] in
theorem forall₂_zipIdx {f : Value × Nat → Except PyExc Value} {items : List Value}
    (same : ∀ item index, item ∈ items → f (item,index) = .ok item) (start : Nat) :
    List.Forall₂ (fun a b => f a = .ok b) (items.zipIdx start) items := by
  induction items generalizing start with
  | nil => exact .nil
  | cons item rest ih =>
    rw [List.zipIdx_cons]
    exact .cons (same item start List.mem_cons_self)
      (ih (fun other index member => same other index (List.mem_cons_of_mem _ member)) (start + 1))

/-- A settled tree is resolved to itself. -/
theorem resolveNode_settled {levels : Nat} {v : Value} (settled : Inlined levels v) (pointer : Str) (seen : List Str) :
    resolveNode document levels v pointer seen = .ok v := by
  induction settled generalizing pointer with
  | leaf noDict noList =>
    unfold resolveNode
    split
    next members => exact absurd rfl (noDict members)
    next items => exact absurd rfl (noList items)
    next => rfl
  | list each_ ih =>
    unfold resolveNode
    refine bind_eq_ok.mpr ⟨_,each_eq_ok.mpr (forall₂_zipIdx (fun item index member => ?_) 0),rfl⟩
    exact ih item member _
  | dict plain each_ ih =>
    rw [resolveNode.eq_def]
    simp only [plain]
    refine bind_eq_ok.mpr ⟨_,each_eq_ok.mpr ?_,rfl⟩
    refine List.forall₂_same.mpr (fun m member => ?_)
    exact bind_eq_ok.mpr ⟨m.2,ih m member _,rfl⟩

/-- Resolution ends in one of its two exceptions or in a tree without references, which it
leaves as it is. -/
theorem resolve_settles (document : Dict) (node : Value) (pointer : Str) :
    Only Refusal (resolve document node pointer) ∧
    ∀ result, resolve document node pointer = .ok result →
      (∀ members, Node result (.dict members) → Dict.get members "$ref" = .null) ∧
      ∀ again, resolve document result again = .ok result := by
  refine ⟨only_resolveNode document _ node pointer [],fun result resolved => ?_⟩
  have settled := settled_resolveNode resolved
  refine ⟨fun members inside => ?_,fun again => resolveNode_settled settled again []⟩
  obtain ⟨_,held⟩ := settled.node inside
  cases held with
  | leaf noDict _ => exact absurd rfl (noDict members)
  | dict plain _ => exact plain

/-- The keywords that constrain values. -/
def validationKeywords : List Str :=
  ["type","enum","minimum","maximum","exclusiveMinimum","exclusiveMaximum","multipleOf","minLength","maxLength",
    "minItems","maxItems","uniqueItems","pattern","items","properties","required","additionalProperties","nullable"]

omit [Unicode] in
/-- What the overlay makes of each key. -/
theorem get_overlay {nested : Str → Value → Except PyExc Value} {siblings base merged : Dict}
    (distinct : (Assoc.keys siblings).Nodup) (overlaid : loop (overlay nested) base siblings = .ok merged) (key : Str) :
    (key ∉ Assoc.keys siblings ∧ Assoc.get key merged = Assoc.get key base) ∨
    ∃ value w, (key,value) ∈ siblings ∧ nested key value = .ok w ∧ Assoc.get key merged = some w := by
  induction siblings generalizing base with
  | nil =>
    cases overlaid
    exact Or.inl ⟨by simp,rfl⟩
  | cons entry rest ih =>
    rw [Assoc.keys_cons,List.nodup_cons] at distinct
    obtain ⟨next,first,later⟩ := loop_cons_eq_ok.mp overlaid
    obtain ⟨w,resolved,rfl⟩ := overlay_eq_ok first
    rcases ih distinct.2 later with ⟨absent,same⟩ | ⟨value,v,member,done,found⟩
    · by_cases here : entry.1 = key
      · subst here
        refine Or.inr ⟨entry.2,w,List.mem_cons_self,resolved,?_⟩
        rw [same,Dict.set,Assoc.get_set_same]
      · refine Or.inl ⟨?_,?_⟩
        · rw [Assoc.keys_cons,List.mem_cons]
          rintro (same | inside)
          · exact here same.symm
          · exact absent inside
        · rw [same,Dict.set,Assoc.get_set_other _ _ here]
    · exact Or.inr ⟨value,v,List.mem_cons_of_mem _ member,done,found⟩

/-- A reference whose target is resolved to the object `base`. -/
structure Targets (document : Dict) (levels : Nat) (members : Dict) (pointer : Str) (seen : List Str) (base : Dict) :
    Prop where
  distinct : (Assoc.keys members).Nodup
  reference : Dict.get members "$ref" ≠ .null
  resolved : ∃ target found, referencePointer (Dict.get members "$ref") pointer = .ok target ∧
    dereference document target pointer = .ok found ∧
    resolveNode document levels found target (seen ++ [target]) = .ok (.dict base)

theorem exists_overlay {levels : Nat} {members base : Dict} {pointer : Str} {seen : List Str} {result : Value}
    (targets : Targets document levels members pointer seen base)
    (resolved : resolveNode document (levels + 1) (.dict members) pointer seen = .ok result) :
    ∃ merged, result = .dict merged ∧ loop (overlay fun key value =>
      resolveNode document levels value (childPointer pointer key) seen) base
      (members.filter (fun entry => entry.1 != Str.lit "$ref")) = .ok merged := by
  obtain ⟨target,found,named,looked,inlined⟩ := targets.resolved
  rw [resolveNode.eq_def] at resolved
  simp only at resolved
  split at resolved
  next plain => exact absurd plain targets.reference
  next =>
    rw [named,ok_bind] at resolved
    obtain ⟨_,resolved⟩ := refuse_bind_eq_ok.mp resolved
    rw [looked,ok_bind,inlined,ok_bind] at resolved
    cases siblings : members.filter (fun entry => entry.1 != Str.lit "$ref") with
    | nil =>
      rw [siblings] at resolved
      cases resolved
      exact ⟨base,rfl,rfl⟩
    | cons entry rest =>
      rw [siblings] at resolved
      obtain ⟨merged,overlaid,done⟩ := bind_eq_ok.mp resolved
      exact ⟨merged,(Except.ok.inj done).symm,overlaid⟩

/-- A reference keeps what its target demands exactly when no sibling names one of the
target's validation keywords with another value. -/
theorem siblings_keep_iff {levels : Nat} {members base merged : Dict} {pointer : Str} {seen : List Str}
    (targets : Targets document levels members pointer seen base)
    (resolved : resolveNode document (levels + 1) (.dict members) pointer seen = .ok (.dict merged)) :
    (∀ key ∈ validationKeywords, ∀ v, Assoc.get key base = some v → Assoc.get key merged = some v) ↔
      ∀ key ∈ validationKeywords, ∀ v, Assoc.get key base = some v → ∀ sibling, Assoc.get key members = some sibling →
        resolveNode document levels sibling (childPointer pointer key) seen = .ok v := by
  obtain ⟨_,same,overlaid⟩ := exists_overlay targets resolved
  cases same
  have distinct : (Assoc.keys (members.filter (fun entry => entry.1 != Str.lit "$ref"))).Nodup :=
    targets.distinct.sublist (List.filter_sublist.map _)
  have other : ∀ key ∈ validationKeywords, key ≠ Str.lit "$ref" := by decide
  refine forall_congr' (fun key => imp_congr_right (fun keyword => forall_congr' (fun v => imp_congr_right (fun demanded => ?_))))
  rcases get_overlay distinct overlaid key with ⟨absent,kept⟩ | ⟨value,w,member,done,found⟩
  · refine iff_of_true (by rw [kept,demanded]) (fun sibling present => absurd ?_ absent)
    refine List.mem_map.mpr ⟨(key,sibling),List.mem_filter.mpr ⟨Assoc.mem_of_get present,?_⟩,rfl⟩
    simpa using other key keyword
  · have present : Assoc.get key members = some value := Assoc.get_of_mem targets.distinct (List.mem_filter.mp member).1
    rw [found,present]
    simp only [Option.some.injEq,forall_eq',done,Except.ok.injEq]

end Resolver

section Siblings

local instance siblingUnicode : Unicode := Unicode.asciiOnly

def levelSchema : Dict := [("type",.str "integer"),("maximum",.int 5)]

def levelDocument : Dict :=
  [("components",.dict [("schemas",.dict [("Level",.dict levelSchema)])])]

def levelReference (sibling : Str × Value) : Dict := [("$ref",.str "#/components/schemas/Level"),sibling]

theorem level_targets (sibling : Str × Value) (other : sibling.1 ≠ Str.lit "$ref") :
    Targets levelDocument maxResolutionDepth (levelReference sibling) [] [] levelSchema where
  distinct := by
    rw [levelReference,Assoc.keys_cons,Assoc.keys_cons]
    simpa using Ne.symm other
  reference := by
    rw [levelReference,Dict.get,Assoc.get_cons,if_pos rfl]
    simp
  resolved := ⟨"/components/schemas/Level",.dict levelSchema,rfl,rfl,rfl⟩

/-- A description beside the reference leaves the bound as it is. -/
theorem siblings_keep_described : let node := levelReference ("description",.str "How high.")
    let merged := levelSchema ++ [(Str.lit "description",.str "How high.")]
    resolveNode levelDocument (maxResolutionDepth + 1) (.dict node) [] [] = .ok (.dict merged) ∧
      ∀ key ∈ validationKeywords, ∀ v, Assoc.get key levelSchema = some v → Assoc.get key merged = some v := by
  have resolved : resolveNode levelDocument (maxResolutionDepth + 1)
      (.dict (levelReference ("description",.str "How high."))) [] [] =
      .ok (.dict (levelSchema ++ [(Str.lit "description",.str "How high.")])) := rfl
  have absent : ∀ key ∈ validationKeywords, Assoc.get key (levelReference ("description",.str "How high.")) = none := by
    intro key keyword
    rw [Assoc.get_eq_none_iff]
    revert key
    decide
  refine ⟨resolved,(siblings_keep_iff (level_targets _ (by decide)) resolved).mpr ?_⟩
  intro key keyword v _ sibling present
  rw [absent key keyword] at present
  cases present

/-- A bound beside the reference replaces the bound of the target. -/
theorem siblings_widen : let node := levelReference ("maximum",.int 100)
    Targets levelDocument maxResolutionDepth node [] [] levelSchema ∧
      ∃ merged, resolve levelDocument (.dict node) [] = .ok (.dict merged) ∧
        ¬ ∀ key ∈ validationKeywords, ∀ v, Assoc.get key levelSchema = some v → Assoc.get key merged = some v := by
  refine ⟨level_targets _ (by decide),[("type",.str "integer"),("maximum",.int 100)],rfl,fun kept => ?_⟩
  have bound := kept "maximum" (by decide) (.int 5) rfl
  cases bound

end Siblings

end ToolLayer.OpenApi
