import ToolLayer.Runtime.Snapshot

/-! The dispatch index of a snapshot: every tool under its name, or none at all. -/
namespace ToolLayer.Runtime
open Python Kit Kit.Result

section Loops

variable {E S A B : Type}

theorem loop_append (step : S → A → Except E S) (s : S) (front back : List A) : loop step s (front ++ back) =
    (loop step s front >>= fun t => loop step t back) := by
  induction front generalizing s with
  | nil => rfl
  | cons a rest ih =>
    rw [List.cons_append,loop,loop]
    cases step s a with
    | error e => rfl
    | ok t => exact ih t

/-- A loop in a loop is one loop over all the items. -/
theorem loop_flatMap (step : S → B → Except E S) (inner : A → List B) (s : S) (items : List A) :
    loop (fun s a => loop step s (inner a)) s items = loop step s (items.flatMap inner) := by
  induction items generalizing s with
  | nil => rfl
  | cons a rest ih =>
    rw [List.flatMap_cons,loop_append,loop]
    cases loop step s (inner a) with
    | error e => rfl
    | ok t => exact ih t

end Loops

variable [Pydantic]

def sharedToolName : PyExc :=
  snapshotIntegrityError "the snapshot defines the same tool name in more than one connector"

/-- The index takes tools while their names are new. -/
theorem indexTools_cases (index : ToolIndex) (added : List BoundTool) :
    (((index.tools ++ added).map BoundTool.toolName).Nodup ∧
      ∃ out, loop indexTool index added = .ok out ∧ out.tools = index.tools ++ added) ∨
    (¬ ((index.tools ++ added).map BoundTool.toolName).Nodup ∧ loop indexTool index added = .error sharedToolName) := by
  induction added generalizing index with
  | nil =>
    rw [List.append_nil]
    exact Or.inl ⟨index.distinct,index,rfl,rfl⟩
  | cons b rest ih =>
    by_cases known : b.toolName ∈ index.tools.map BoundTool.toolName
    · refine Or.inr ⟨fun distinct => ?_,?_⟩
      · rw [List.map_append,List.map_cons] at distinct
        exact (List.nodup_append.mp distinct).2.2 _ known _ List.mem_cons_self rfl
      · rw [loop,indexTool,dif_pos known]
        rfl
    · have grown : ((index.tools ++ [b]).map BoundTool.toolName).Nodup := by
        rw [List.map_append]
        exact List.nodup_append'.mpr ⟨index.distinct,List.nodup_singleton _,by simpa using known⟩
      have step : loop indexTool index (b::rest) = loop indexTool ⟨index.tools ++ [b],grown⟩ rest := by
        rw [loop,indexTool,dif_neg known]
      rw [step,List.append_cons]
      exact ih ⟨index.tools ++ [b],grown⟩

/-- A tool of the index is found under its name. -/
theorem find_of_mem {index : ToolIndex} {b : BoundTool} (member : b ∈ index.tools) : index.find b.toolName = some b := by
  have found : (index.find b.toolName).isSome = true := by
    rw [ToolIndex.find,List.find?_isSome]
    exact ⟨b,member,by simp⟩
  obtain ⟨other,same⟩ := Option.isSome_iff_exists.mp found
  have named : other.toolName = b.toolName := by simpa using List.find?_some same
  rw [same,List.inj_on_of_nodup_map index.distinct (List.mem_of_find?_eq_some same) member named]

variable [Unicode]

/-- No tool name stands in two of the connectors. -/
def Apart (connectors : List ConnectorDefinition) : Prop :=
  connectors.Pairwise (fun a b => ∀ t ∈ a.tools, ∀ u ∈ b.tools, t.toolName ≠ u.toolName)

theorem nodup_toolNames_iff (connectors : List ConnectorDefinition) :
    ((connectors.flatMap (fun c => c.tools.map (bound c))).map BoundTool.toolName).Nodup ↔ Apart connectors := by
  have names (c : ConnectorDefinition) : (c.tools.map (bound c)).map BoundTool.toolName =
      c.tools.map ToolDefinition.toolName := by
    rw [List.map_map]
    rfl
  rw [List.map_flatMap]
  simp only [names]
  rw [List.nodup_flatMap]
  have own : ∀ c ∈ connectors, (c.tools.map ToolDefinition.toolName).Nodup := fun c _ => c.accepted.2.2.2.2.2.2.2
  rw [and_iff_right own]
  apply List.Pairwise.iff
  intro a b
  simp only [Function.onFun,List.Disjoint,List.mem_map]
  constructor
  · rintro apart t member u other same
    exact apart ⟨t,member,rfl⟩ ⟨u,other,same.symm⟩
  · rintro apart name ⟨t,member,rfl⟩ ⟨u,other,same⟩
    exact apart t member u other same.symm

/-- The index of a snapshot holds every tool, unless two connectors share a name. -/
theorem indexOf_cases (snapshot : DeploymentSnapshot) :
    (Apart snapshot.connectors ∧ ∃ index, indexOf snapshot = .ok index ∧
      index.tools = snapshot.connectors.flatMap (fun c => c.tools.map (bound c))) ∨
    (¬ Apart snapshot.connectors ∧ indexOf snapshot = .error sharedToolName) := by
  rw [← nodup_toolNames_iff,indexOf,loop_flatMap]
  exact indexTools_cases ⟨[],List.nodup_nil⟩ _

end ToolLayer.Runtime
