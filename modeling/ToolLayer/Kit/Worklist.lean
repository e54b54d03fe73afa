import ToolLayer.Kit.Result

/-! A worklist over a graph, and the tree that the graph unfolds to. The graph may share nodes and may
be cyclic; then the tree is larger than the graph, or there is none that is finite. -/
namespace Kit.Worklist
open Kit.Result

variable {B E : Type}

inductive Rose (B : Type) where
  | node (root : B) (below : List (Rose B))

namespace Rose

def root : Rose B → B
  | .node b _ => b

mutual
/-- The labels of all nodes, the root first. -/
def labels : Rose B → List B
  | .node b below => b :: labelsOf below
def labelsOf : List (Rose B) → List B
  | [] => []
  | t::rest => labels t ++ labelsOf rest
end

theorem root_mem_labels (t : Rose B) : t.root ∈ t.labels := by
  obtain ⟨b,below⟩ := t
  exact List.mem_cons_self

theorem labelsOf_append (first second : List (Rose B)) : labelsOf (first ++ second) = labelsOf first ++ labelsOf second := by
  induction first with
  | nil => rfl
  | cons t rest ih => rw [List.cons_append,labelsOf,labelsOf,ih,List.append_assoc]

/-- The order of the trees does not matter for what labels there are, and how many. -/
theorem labelsOf_reverse (forest : List (Rose B)) : (labelsOf forest.reverse).Perm (labelsOf forest) := by
  induction forest with
  | nil => exact List.Perm.refl _
  | cons t rest ih =>
    rw [List.reverse_cons,labelsOf_append,labelsOf,labelsOf,labelsOf,List.append_nil]
    exact (ih.append_right _).trans List.perm_append_comm

/-- Below every node stands what its label leads to. -/
inductive Unfolds (next : B → List B) : Rose B → Prop where
  | node {b : B} {below : List (Rose B)} (roots : below.map root = next b) (each : ∀ t ∈ below, Unfolds next t) :
      Unfolds next (.node b below)

def size (t : Rose B) : Nat := t.labels.length

mutual
/-- How many steps the deepest node is away from the root. -/
def height : Rose B → Nat
  | .node _ below => heightOf below
/-- One more than the height of the highest tree. -/
def heightOf : List (Rose B) → Nat
  | [] => 0
  | t::rest => max (height t + 1) (heightOf rest)
end

mutual
/-- Every label with its depth, the root's being `n`. -/
def leveled (n : Nat) : Rose B → Rose (B × Nat)
  | .node b below => .node (b,n) (leveledOf (n + 1) below)
def leveledOf (n : Nat) : List (Rose B) → List (Rose (B × Nat))
  | [] => []
  | t::rest => leveled n t :: leveledOf n rest
end

theorem leveledOf_eq (n : Nat) (forest : List (Rose B)) : leveledOf n forest = forest.map (leveled n) := by
  induction forest with
  | nil => rfl
  | cons t rest ih => rw [leveledOf,ih,List.map_cons]

theorem root_leveled (n : Nat) (t : Rose B) : (leveled n t).root = (t.root,n) := by
  obtain ⟨b,below⟩ := t
  rfl

mutual
theorem labels_leveled (n : Nat) : (t : Rose B) → (leveled n t).labels.map Prod.fst = t.labels
  | .node b below => by rw [leveled,labels,labels,List.map_cons,labelsOf_leveledOf (n + 1) below]
theorem labelsOf_leveledOf (n : Nat) : (forest : List (Rose B)) → (labelsOf (leveledOf n forest)).map Prod.fst = labelsOf forest
  | [] => rfl
  | t::rest => by rw [leveledOf,labelsOf,labelsOf,List.map_append,labels_leveled n t,labelsOf_leveledOf n rest]
end

mutual
/-- No label lies deeper than a bound exactly if the tree is not higher. -/
theorem depths_le {n : Nat} {m : Int} : (t : Rose B) → ((∀ c ∈ (leveled n t).labels, (c.2 : Int) ≤ m) ↔ (n + t.height : Int) ≤ m)
  | .node b below => by
    rw [leveled,labels,List.forall_mem_cons,depthsOf_le below,height]
    constructor
    · rintro ⟨here,flat | deep⟩ <;> omega
    · intro bound
      refine ⟨by omega,?_⟩
      omega
theorem depthsOf_le {n : Nat} {m : Int} : (forest : List (Rose B)) →
    ((∀ c ∈ labelsOf (leveledOf (n + 1) forest), (c.2 : Int) ≤ m) ↔ heightOf forest = 0 ∨ (n + heightOf forest : Int) ≤ m)
  | [] => by simp [leveledOf,labelsOf,heightOf]
  | t::rest => by
    rw [leveledOf,labelsOf,List.forall_mem_append,depths_le t,depthsOf_le rest,heightOf]
    omega
end

/-- The next labels with their depths. -/
def deeper (next : B → List B) (entry : B × Nat) : List (B × Nat) := (next entry.1).map (·,entry.2 + 1)

variable {next : B → List B}

theorem Unfolds.leveled {t : Rose B} (unfolds : t.Unfolds next) (n : Nat) : (Rose.leveled n t).Unfolds (deeper next) := by
  induction unfolds generalizing n with
  | @node b below roots _ ih =>
    rw [Rose.leveled,leveledOf_eq]
    refine .node ?_ ?_
    · rw [deeper,← roots,List.map_map,List.map_map]
      exact List.map_congr_left (fun t _ => root_leveled (n + 1) t)
    · intro u member
      obtain ⟨t,inside,rfl⟩ := List.mem_map.mp member
      exact ih t inside (n + 1)

/-- A tree with depths is a tree, leveled. -/
theorem Unfolds.exists_leveled {u : Rose (B × Nat)} (unfolds : u.Unfolds (deeper next)) :
    ∃ t : Rose B, u = Rose.leveled u.root.2 t ∧ t.Unfolds next := by
  induction unfolds with
  | @node entry below roots each ih =>
    have forest : ∃ under : List (Rose B), List.Forall₂ (fun v t => v = Rose.leveled v.root.2 t ∧ t.Unfolds next) below under :=
      exists_forall₂.mpr ih
    obtain ⟨under,related⟩ := forest
    have depths : ∀ v ∈ below, v.root.2 = entry.2 + 1 := by
      intro v member
      have inside : v.root ∈ deeper next entry := roots ▸ List.mem_map_of_mem member
      obtain ⟨b,_,same⟩ := List.mem_map.mp inside
      rw [← same]
    have copies : below = under.map (Rose.leveled (entry.2 + 1)) := by
      clear ih roots each
      induction related with
      | nil => rfl
      | cons first _ tail =>
        rw [List.forall_mem_cons] at depths
        have top := first.1
        rw [depths.1] at top
        rw [List.map_cons,← tail depths.2,← top]
    refine ⟨.node entry.1 under,?_,.node ?_ ?_⟩
    · rw [Rose.leveled,leveledOf_eq]
      exact congrArg (Rose.node entry) copies
    · rw [copies,deeper,List.map_map] at roots
      have firsts := congrArg (List.map Prod.fst) roots
      rw [List.map_map,List.map_map] at firsts
      have left : under.map root = under.map (Prod.fst ∘ root ∘ Rose.leveled (entry.2 + 1)) :=
        List.map_congr_left (fun t _ => by rw [Function.comp_apply,Function.comp_apply,root_leveled])
      rw [left,firsts]
      exact List.map_id _
    · intro t member
      obtain ⟨_,_,fine⟩ := exists_left related member
      exact fine.2

/-- There is at most one tree that a label unfolds to. -/
theorem Unfolds.unique {t u : Rose B} (first : t.Unfolds next) (second : u.Unfolds next) (same : t.root = u.root) : t = u := by
  induction first generalizing u with
  | @node b below roots _ ih =>
    cases second with
    | @node c under roots' each =>
      have equal : b = c := same
      subst equal
      congr 1
      refine List.ext_getElem ?_ ?_
      · have lengths := congrArg List.length (roots.trans roots'.symm)
        rwa [List.length_map,List.length_map] at lengths
      · intro i here there
        refine ih _ (List.getElem_mem here) (each _ (List.getElem_mem there)) ?_
        have entries := congrArg (fun l => l[i]?) (roots.trans roots'.symm)
        simp only [List.getElem?_map,List.getElem?_eq_getElem here,List.getElem?_eq_getElem there,Option.map_some] at entries
        exact Option.some.inj entries

end Rose

open Rose

/-- Pop, visit, push; `full` when more than `left` entries have been popped. -/
def walk (visit : B → List B → Except E (List B)) (full : E) : Nat → List B → Except E Unit
  | _,[] => .ok ()
  | 0,_::_ => .error full
  | left + 1,b::stack =>
    match visit b stack with
    | .ok pushed => walk visit full left pushed
    | .error e => .error e

variable {visit : B → List B → Except E (List B)} {full : E} {next : B → List B} {good : B → Prop}

/-- A walk is through exactly if the entries on the stack unfold to trees of good labels, no more
of them than there are pops left. -/
theorem walk_eq_ok (visits : ∀ b stack pushed, visit b stack = .ok pushed ↔ good b ∧ pushed = (next b).reverse ++ stack)
    {left : Nat} {stack : List B} : walk visit full left stack = .ok () ↔
      ∃ forest : List (Rose B), forest.map root = stack ∧ (∀ t ∈ forest, t.Unfolds next) ∧
        (labelsOf forest).length ≤ left ∧ ∀ b ∈ labelsOf forest, good b := by
  induction left generalizing stack with
  | zero =>
    cases stack with
    | nil => exact ⟨fun _ => ⟨[],rfl,fun _ none_ => (nomatch none_),Nat.le_refl 0,fun _ none_ => (nomatch none_)⟩,fun _ => rfl⟩
    | cons b rest =>
      constructor
      · intro raised
        cases raised
      · rintro ⟨forest,roots,_,few,_⟩
        cases forest with
        | nil => cases roots
        | cons t more =>
          obtain ⟨c,below⟩ := t
          rw [labelsOf,labels,List.cons_append,List.length_cons] at few
          omega
  | succ left ih =>
    cases stack with
    | nil => exact ⟨fun _ => ⟨[],rfl,fun _ none_ => (nomatch none_),Nat.zero_le _,fun _ none_ => (nomatch none_)⟩,fun _ => rfl⟩
    | cons b rest =>
      constructor
      · intro done
        rw [walk] at done
        split at done
        next pushed visited =>
          obtain ⟨fine,rfl⟩ := (visits b rest pushed).mp visited
          obtain ⟨forest,roots,unfold_,few,all⟩ := ih.mp done
          -- The pushed entries come first, in reverse.
          obtain ⟨above,others,rfl,first,second⟩ := List.map_eq_append_iff.mp roots
          have labels_ := labelsOf_reverse above
          refine ⟨.node b above.reverse :: others,by rw [List.map_cons,second]; rfl,?_,?_,?_⟩
          · rw [List.forall_mem_cons]
            refine ⟨.node (by rw [List.map_reverse,first,List.reverse_reverse]) (fun t member =>
              unfold_ t (List.mem_append_left _ (List.mem_reverse.mp member))),fun t member =>
              unfold_ t (List.mem_append_right _ member)⟩
          · rw [labelsOf_append,List.length_append] at few
            rw [labelsOf,labels,List.length_append,List.length_cons,labels_.length_eq]
            omega
          · rw [labelsOf_append] at all
            rw [labelsOf,labels]
            intro c member
            rcases List.mem_append.mp member with inTree | later
            · rcases List.mem_cons.mp inTree with rfl | below
              · exact fine
              · exact all c (List.mem_append_left _ (labels_.mem_iff.mp below))
            · exact all c (List.mem_append_right _ later)
        next => cases done
      · rintro ⟨forest,roots,unfold_,few,all⟩
        cases forest with
        | nil => cases roots
        | cons t more =>
          obtain ⟨c,below⟩ := t
          obtain ⟨rfl,rfl⟩ := List.cons.inj roots
          rw [List.forall_mem_cons] at unfold_
          obtain ⟨⟨under,each⟩,others⟩ := unfold_
          rw [labelsOf,labels] at few all
          have visited := (visits (root (.node c below)) (more.map root) _).mpr ⟨all _ (by simp [root]),rfl⟩
          have labels_ := labelsOf_reverse below
          rw [walk,visited]
          refine ih.mpr ⟨below.reverse ++ more,?_,?_,?_,?_⟩
          · rw [List.map_append,List.map_reverse,under]
            rfl
          · intro t member
            rcases List.mem_append.mp member with first | second
            · exact each t (List.mem_reverse.mp first)
            · exact others t second
          · rw [List.length_append,List.length_cons] at few
            rw [labelsOf_append,List.length_append,labels_.length_eq]
            omega
          · intro d member
            rw [labelsOf_append] at member
            rcases List.mem_append.mp member with first | second
            · exact all d (List.mem_append_left _ (List.mem_cons_of_mem _ (labels_.mem_iff.mp first)))
            · exact all d (List.mem_append_right _ second)

/-- What a walk raises is `full` or comes from a visit. -/
theorem only_walk {P : E → Prop} (fullOnly : P full) (visitOnly : ∀ b stack, Only P (visit b stack)) (left : Nat) (stack : List B) :
    Only P (walk visit full left stack) := by
  induction left generalizing stack with
  | zero =>
    cases stack with
    | nil => exact only_ok ()
    | cons b rest => exact only_error fullOnly
  | succ left ih =>
    cases stack with
    | nil => exact only_ok ()
    | cons b rest =>
      rw [walk]
      have step := visitOnly b rest
      split
      next pushed _ => exact ih pushed
      next e raised => exact only_error (step e raised)

end Kit.Worklist
