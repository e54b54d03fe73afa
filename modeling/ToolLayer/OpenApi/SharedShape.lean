import ToolLayer.Kit.Worklist
import ToolLayer.OpenApi.Parsing

/-! The shape check over shared structure. A YAML alias makes two members hold one object, and an
anchor inside itself makes a cycle: a document is a heap of cells, not a tree. -/
namespace ToolLayer.OpenApi
open Python Kit Kit.Result Kit.Worklist

/-- A dictionary key; YAML also yields keys that are not text. -/
inductive Key where
  | text (s : Str)
  | other
  deriving DecidableEq

/-- What stands at an address. -/
inductive Cell (A : Type) where
  | object (members : List (Key × A))
  | array (items : List A)
  | float (number : Number)
  | scalar

namespace Cell

variable {A : Type}

def below : Cell A → List A
  | .object members => members.map Prod.snd
  | .array items => items
  | _ => []

/-- The keys are text and the number is finite. -/
def Proper : Cell A → Prop
  | .object members => ∀ m ∈ members, ∃ s, m.1 = .text s
  | .float number => ∃ m e, number = .finite m e
  | _ => True

end Cell

variable {A : Type}

def pushMember (depth : Nat) (stack : List (A × Nat)) (m : Key × A) : Except PyExc (List (A × Nat)) :=
  match m.1 with
  | .text _ => .ok ((m.2,depth + 1)::stack)
  | .other => .error (invalidDocument "object keys must be strings")

/-- The body of the loop of `_enforce_shape`, after the node is counted. -/
def shapeVisit (cells : A → Cell A) (maxDepth : Int) (entry : A × Nat) (stack : List (A × Nat)) :
    Except PyExc (List (A × Nat)) := do
  refuse (decide (maxDepth < entry.2)) (tooLarge "the document nests too deeply")
  match cells entry.1 with
  | .object members => loop (pushMember entry.2) stack members
  | .array items => return (items.map (·,entry.2 + 1)).reverse ++ stack
  | .float (.finite _ _) => return stack
  | .float _ => throw (invalidDocument "the document contains a non-finite number")
  | .scalar => return stack

/-- `_enforce_shape`. -/
def enforceShapeShared (cells : A → Cell A) (maxNodes maxDepth : Int) (node : A) : Except PyExc Unit :=
  walk (shapeVisit cells maxDepth) (tooLarge "the document contains too many nodes") maxNodes.toNat [(node,0)]

theorem loop_pushMember {depth : Nat} {members : List (Key × A)} {stack pushed : List (A × Nat)} :
    loop (pushMember depth) stack members = .ok pushed ↔
      (∀ m ∈ members, ∃ s, m.1 = .text s) ∧ pushed = (members.map (fun m => (m.2,depth + 1))).reverse ++ stack := by
  induction members generalizing stack with
  | nil => simp [eq_comm]
  | cons m rest ih =>
    obtain ⟨key,a⟩ := m
    rw [loop_cons_eq_ok,List.forall_mem_cons,List.map_cons,List.reverse_cons,List.append_assoc]
    cases key with
    | text s =>
      have step : pushMember depth stack (.text s,a) = .ok ((a,depth + 1)::stack) := rfl
      rw [step]
      constructor
      · rintro ⟨_,first,later⟩
        cases first
        obtain ⟨texts,all⟩ := ih.mp later
        exact ⟨⟨⟨s,rfl⟩,texts⟩,all⟩
      · rintro ⟨⟨_,texts⟩,all⟩
        exact ⟨_,rfl,ih.mpr ⟨texts,all⟩⟩
    | other =>
      constructor
      · rintro ⟨_,raised,_⟩
        cases raised
      · rintro ⟨⟨⟨_,text⟩,_⟩,_⟩
        cases text

/-- A node is visited without a refusal if it is neither too deep nor improper; what is below it goes
on the stack. -/
theorem shapeVisit_eq_ok {cells : A → Cell A} {maxDepth : Int} {entry : A × Nat} {stack pushed : List (A × Nat)} :
    shapeVisit cells maxDepth entry stack = .ok pushed ↔
      ((entry.2 : Int) ≤ maxDepth ∧ (cells entry.1).Proper) ∧
        pushed = (Rose.deeper (fun a => (cells a).below) entry).reverse ++ stack := by
  rw [shapeVisit,refuse_bind_eq_ok,decide_eq_false_iff_not,Int.not_lt,and_assoc,Rose.deeper]
  refine and_congr_right fun _ => ?_
  split
  next members found =>
    rw [found,Cell.below,List.map_map]
    exact loop_pushMember
  next items found => simp [found,Cell.Proper,Cell.below,eq_comm]
  next m e found => simp [found,Cell.Proper,Cell.below,eq_comm]
  next number infinite found =>
    have never : ¬ ∃ m e, number = .finite m e := by
      rintro ⟨m,e,finite⟩
      exact infinite m e finite
    simp [found,Cell.Proper,never]
  next found => simp [found,Cell.Proper,Cell.below,eq_comm]

theorem only_shapeVisit (cells : A → Cell A) (maxDepth : Int) (entry : A × Nat) (stack : List (A × Nat)) :
    Only IsConversionError (shapeVisit cells maxDepth entry stack) := by
  refine only_bind (only_refuse (fun _ => isConversionError_tooLarge _)) (fun _ _ => ?_)
  split
  · refine only_loop (fun s m _ => ?_)
    unfold pushMember
    split
    · exact only_ok _
    · exact only_error (isConversionError_invalid _ _)
  · exact only_ok _
  · exact only_ok _
  · exact only_error (isConversionError_invalid _ _)
  · exact only_ok _

/-- A document of cells is let through exactly if it unfolds to a tree with no more nodes and no
deeper than the limits, of proper cells only; any other raises a conversion error. -/
theorem enforceShapeShared_exact (cells : A → Cell A) (maxNodes maxDepth : Int) (node : A) :
    (enforceShapeShared cells maxNodes maxDepth node = .ok () ↔
      ∃ t : Rose A, t.root = node ∧ t.Unfolds (fun a => (cells a).below) ∧ (t.size : Int) ≤ maxNodes ∧
        (t.height : Int) ≤ maxDepth ∧ ∀ a ∈ t.labels, (cells a).Proper) ∧
      (enforceShapeShared cells maxNodes maxDepth node = .ok () ∨
        ∃ e, enforceShapeShared cells maxNodes maxDepth node = .error e ∧ IsConversionError e) := by
  constructor
  · rw [enforceShapeShared,walk_eq_ok (fun _ _ _ => shapeVisit_eq_ok)]
    constructor
    · rintro ⟨forest,roots,unfold_,few,all⟩
      obtain ⟨u,rfl,top⟩ := List.map_eq_singleton_iff.mp roots
      obtain ⟨t,leveled_,unfolds⟩ := (unfold_ u List.mem_cons_self).exists_leveled
      rw [top] at leveled_
      change u = Rose.leveled 0 t at leveled_
      subst leveled_
      have labels_ := Rose.labels_leveled 0 t
      rw [Rose.labelsOf,Rose.labelsOf,List.append_nil] at few all
      rw [Rose.root_leveled] at top
      refine ⟨t,congrArg Prod.fst top,unfolds,?_,?_,?_⟩
      · rw [Rose.size,← labels_,List.length_map]
        have some_ : 0 < (Rose.leveled 0 t).labels.length := List.length_pos_of_mem (Rose.root_mem_labels _)
        omega
      · have depths := (Rose.depths_le t).mp (fun c member => (all c member).1)
        omega
      · intro a member
        rw [← labels_] at member
        obtain ⟨c,inside,rfl⟩ := List.mem_map.mp member
        exact (all c inside).2
    · rintro ⟨t,rfl,unfolds,few,low,proper⟩
      have labels_ := Rose.labels_leveled 0 t
      refine ⟨[Rose.leveled 0 t],?_,?_,?_,?_⟩
      · rw [List.map_singleton,Rose.root_leveled]
      · intro u member
        rw [List.mem_singleton.mp member]
        exact unfolds.leveled 0
      · rw [Rose.size,← labels_,List.length_map] at few
        rw [Rose.labelsOf,Rose.labelsOf,List.append_nil]
        omega
      · rw [Rose.labelsOf,Rose.labelsOf,List.append_nil]
        intro c member
        refine ⟨(Rose.depths_le t).mpr ?_ c member,?_⟩
        · rwa [Nat.cast_zero,Int.zero_add]
        · have inside := List.mem_map_of_mem (f := Prod.fst) member
          rw [labels_] at inside
          exact proper _ inside
  · cases ran : enforceShapeShared cells maxNodes maxDepth node with
    | ok u => exact Or.inl rfl
    | error e =>
      refine Or.inr ⟨e,rfl,?_⟩
      exact only_walk (isConversionError_tooLarge _) (only_shapeVisit cells maxDepth) _ _ e ran

-- Two shared lists unfold to seven nodes, and a list inside itself to no end.
example : enforceShapeShared (fun n : Nat => if n = 0 then .scalar else .array [n - 1,n - 1]) 7 64 2 = .ok () := rfl
example : enforceShapeShared (fun n : Nat => if n = 0 then .scalar else .array [n - 1,n - 1]) 6 64 2 =
    .error (tooLarge "the document contains too many nodes") := rfl
example : enforceShapeShared (fun n : Nat => .array [n]) 100 20 0 = .error (tooLarge "the document nests too deeply") := rfl

/-- A tree of values is a document in which nothing is shared. -/
def valueCell : Value → Cell Value
  | .dict members => .object (members.map (fun m => (.text m.1,m.2)))
  | .list items => .array items
  | .float x => .float x.number
  | _ => .scalar

theorem shapeStep_eq (limits : SourceLimits) (depth : Nat) (node : Value) (stack : List (Value × Nat)) :
    shapeStep limits depth node stack = shapeVisit valueCell limits.maxDepth (node,depth) stack := by
  unfold shapeStep shapeVisit
  simp only [Nat.cast_lt]
  congr 1
  funext _
  cases node with
  | dict members =>
    have texts : ∀ m ∈ members.map (fun m : Str × Value => (Key.text m.1,m.2)), ∃ s, m.1 = .text s := by
      intro m member
      obtain ⟨n,_,rfl⟩ := List.mem_map.mp member
      exact ⟨n.1,rfl⟩
    have pushed : loop (pushMember depth) stack (members.map (fun m => (Key.text m.1,m.2))) = .ok _ :=
      loop_pushMember.mpr ⟨texts,rfl⟩
    rw [List.map_map] at pushed
    exact pushed.symm
  | float x =>
    simp only [valueCell]
    cases x.number <;> rfl
  | _ => rfl

theorem enforceShape_eq (limits : SourceLimits) (document : Value) :
    enforceShape limits limits.maxNodes [(document,0)] = enforceShapeShared valueCell limits.maxNodes limits.maxDepth document := by
  have loops : ∀ left stack, enforceShape limits left stack =
      walk (shapeVisit valueCell limits.maxDepth) (tooLarge "the document contains too many nodes") left stack := by
    intro left
    induction left with
    | zero =>
      intro stack
      cases stack <;> rfl
    | succ left ih =>
      intro stack
      cases stack with
      | nil => rfl
      | cons top rest =>
        rw [enforceShape,walk,shapeStep_eq]
        split
        next pushed visited =>
          rw [visited]
          exact ih pushed
        next e raised => rw [raised]
  exact loops _ _

end ToolLayer.OpenApi
