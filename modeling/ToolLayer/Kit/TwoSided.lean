import Mathlib.Tactic.Tauto

/-! Two checks of the same values: what both ask for, and what each of them asks besides. -/
namespace Kit

/-- Two checks, split into what they share and what only one of them asks. -/
structure TwoSided (V : Type) where
  first : V → Prop
  second : V → Prop
  shared : V → Prop
  firstOnly : V → Prop
  secondOnly : V → Prop
  first_iff : ∀ v, first v ↔ shared v ∧ firstOnly v
  second_iff : ∀ v, second v ↔ shared v ∧ secondOnly v

namespace TwoSided

variable {V W : Type}

/-- The checks agree on a value unless it meets what they share and only one of the rest. -/
theorem agree_iff (t : TwoSided V) (v : V) :
    (t.first v ↔ t.second v) ↔ (t.shared v → (t.firstOnly v ↔ t.secondOnly v)) := by
  rw [t.first_iff,t.second_iff]
  tauto

/-- What passes the first check passes the second as soon as it meets the rest of it. -/
theorem second_of_first {t : TwoSided V} {v : V} (first : t.first v) (rest : t.secondOnly v) : t.second v :=
  (t.second_iff v).mpr ⟨((t.first_iff v).mp first).1,rest⟩

/-- Checks given by their three parts. -/
def ofParts (shared firstOnly secondOnly : V → Prop) : TwoSided V where
  first v := shared v ∧ firstOnly v
  second v := shared v ∧ secondOnly v
  shared := shared
  firstOnly := firstOnly
  secondOnly := secondOnly
  first_iff _ := Iff.rfl
  second_iff _ := Iff.rfl

/-- One check made twice. -/
def same (check : V → Prop) : TwoSided V := ofParts check (fun _ => True) (fun _ => True)

/-- Both of two pairs of checks. -/
def and (s t : TwoSided V) : TwoSided V where
  first v := s.first v ∧ t.first v
  second v := s.second v ∧ t.second v
  shared v := s.shared v ∧ t.shared v
  firstOnly v := s.firstOnly v ∧ t.firstOnly v
  secondOnly v := s.secondOnly v ∧ t.secondOnly v
  first_iff v := by
    rw [s.first_iff,t.first_iff]
    tauto
  second_iff v := by
    rw [s.second_iff,t.second_iff]
    tauto

/-- The checks of a part that has to be there. -/
def along (part : V → Option W) (t : TwoSided W) : TwoSided V where
  first v := ∃ w, part v = some w ∧ t.first w
  second v := ∃ w, part v = some w ∧ t.second w
  shared v := ∃ w, part v = some w ∧ t.shared w
  firstOnly v := ∀ w, part v = some w → t.firstOnly w
  secondOnly v := ∀ w, part v = some w → t.secondOnly w
  first_iff v := by
    cases part v with
    | none => simp
    | some w => simp [t.first_iff]
  second_iff v := by
    cases part v with
    | none => simp
    | some w => simp [t.second_iff]

/-- The checks of every one of some parts. -/
def each (parts : V → List W) (t : TwoSided W) : TwoSided V where
  first v := ∀ w ∈ parts v, t.first w
  second v := ∀ w ∈ parts v, t.second w
  shared v := ∀ w ∈ parts v, t.shared w
  firstOnly v := ∀ w ∈ parts v, t.firstOnly w
  secondOnly v := ∀ w ∈ parts v, t.secondOnly w
  first_iff v := by
    rw [← forall₂_and]
    exact forall₂_congr (fun w _ => t.first_iff w)
  second_iff v := by
    rw [← forall₂_and]
    exact forall₂_congr (fun w _ => t.second_iff w)

/-- All of some pairs of checks. -/
def conj (checks : List (TwoSided V)) : TwoSided V where
  first v := ∀ t ∈ checks, t.first v
  second v := ∀ t ∈ checks, t.second v
  shared v := ∀ t ∈ checks, t.shared v
  firstOnly v := ∀ t ∈ checks, t.firstOnly v
  secondOnly v := ∀ t ∈ checks, t.secondOnly v
  first_iff v := by
    rw [← forall₂_and]
    exact forall₂_congr (fun t _ => t.first_iff v)
  second_iff v := by
    rw [← forall₂_and]
    exact forall₂_congr (fun t _ => t.second_iff v)

/-- Checks that some values need not pass. -/
def excusing (excused : V → Prop) (t : TwoSided V) : TwoSided V where
  first v := excused v ∨ t.first v
  second v := excused v ∨ t.second v
  shared v := excused v ∨ t.shared v
  firstOnly v := ¬ excused v → t.firstOnly v
  secondOnly v := ¬ excused v → t.secondOnly v
  first_iff v := by
    rw [t.first_iff]
    tauto
  second_iff v := by
    rw [t.second_iff]
    tauto

end TwoSided

end Kit
