import ToolLayer.Kit.Split

/-! Texts that show where they end: a piece read off the front is determined by what is
there, and so is a separated sequence of such pieces between brackets. -/
namespace Kit.Delimited

variable {A C : Type*} {stop : C → Bool}

/-- Nothing follows, or a symbol that ends a piece. -/
def Ends (stop : C → Bool) (rest : List C) : Prop := ∀ c ∈ rest.head?, stop c = true

theorem Ends.nil : Ends stop ([] : List C) := by simp [Ends]

theorem Ends.cons {c : C} {rest : List C} (stops : stop c = true) : Ends stop (c::rest) := by simpa [Ends] using stops

/-- No other well-formed piece is read where the text of `a` stands. -/
def Determined (stop : C → Bool) (text : A → List C) (good : A → Prop) (a : A) : Prop :=
  ∀ b, good b → ∀ r s, Ends stop r → Ends stop s → text a ++ r = text b ++ s → a = b ∧ r = s

/-- A word without stops, where one of those or the end follows. -/
theorem word_cancel {u v r s : List C} (plain : ∀ c ∈ u, stop c = false) (other : ∀ c ∈ v, stop c = false)
    (ends : Ends stop r) (stops : Ends stop s) (same : u ++ r = v ++ s) : u = v ∧ r = s := by
  induction u generalizing v with
  | nil =>
    cases v with
    | nil => exact ⟨rfl,same⟩
    | cons c v =>
      have first : stop c = true := ends c (by simp [show r = c::(v ++ s) from same])
      rw [other c List.mem_cons_self] at first
      cases first
  | cons c u ih =>
    cases v with
    | nil =>
      have first : stop c = true := stops c (by simp [show s = c::(u ++ r) from same.symm])
      rw [plain c List.mem_cons_self] at first
      cases first
    | cons d v =>
      obtain ⟨rfl,tail⟩ := List.cons.inj same
      obtain ⟨rfl,rest⟩ := ih (fun x member => plain x (List.mem_cons_of_mem _ member))
        (fun x member => other x (List.mem_cons_of_mem _ member)) tail
      exact ⟨rfl,rest⟩

theorem glue_cons (sep piece : List C) (pieces : List (List C)) :
    Split.glue sep (piece::pieces) = piece ++ pieces.flatMap (fun next => sep ++ next) := by
  induction pieces generalizing piece with
  | nil => simp [Split.glue]
  | cons next pieces ih => rw [Split.glue,ih,List.flatMap_cons,List.append_assoc,List.append_assoc]

section Sequences

variable {text : A → List C} {good : A → Prop} {comma close : C}

/-- The pieces after the first, each with its separator. -/
theorem rest_cancel (separates : stop comma = true) (closes : stop close = true) (apart : comma ≠ close)
    {xs ys : List A} (each : ∀ x ∈ xs, Determined stop text good x) (others : ∀ y ∈ ys, good y) {r s : List C}
    (same : xs.flatMap (fun x => comma :: text x) ++ close::r = ys.flatMap (fun y => comma :: text y) ++ close::s) :
    xs = ys ∧ r = s := by
  have opens : ∀ (zs : List A) (u : List C), Ends stop (zs.flatMap (fun z => comma :: text z) ++ close::u) := by
    intro zs u
    cases zs with
    | nil => exact Ends.cons closes
    | cons z zs => exact Ends.cons separates
  induction xs generalizing ys with
  | nil =>
    cases ys with
    | nil => exact ⟨rfl,(List.cons.inj same).2⟩
    | cons y ys => exact absurd (List.cons.inj same).1.symm apart
  | cons x xs ih =>
    cases ys with
    | nil => exact absurd (List.cons.inj same).1 apart
    | cons y ys =>
      rw [List.forall_mem_cons] at each others
      simp only [List.flatMap_cons,List.cons_append,List.append_assoc,List.cons.injEq,true_and] at same
      obtain ⟨rfl,tail⟩ := each.1 y others.1 _ _ (opens xs r) (opens ys s) same
      obtain ⟨rfl,rest⟩ := ih each.2 others.2 tail
      exact ⟨rfl,rest⟩

/-- A bracketed sequence whose pieces never start with the closing bracket. -/
theorem glue_cancel (separates : stop comma = true) (closes : stop close = true) (apart : comma ≠ close)
    {xs ys : List A} (each : ∀ x ∈ xs, Determined stop text good x) (here : ∀ x ∈ xs, good x) (others : ∀ y ∈ ys, good y)
    (starts : ∀ a, good a → ∃ c rest, text a = c::rest ∧ c ≠ close) {r s : List C}
    (same : Split.glue [comma] (xs.map text) ++ close::r = Split.glue [comma] (ys.map text) ++ close::s) :
    xs = ys ∧ r = s := by
  have opens : ∀ (zs : List A) (u : List C), Ends stop (zs.flatMap (fun z => comma :: text z) ++ close::u) := by
    intro zs u
    cases zs with
    | nil => exact Ends.cons closes
    | cons z zs => exact Ends.cons separates
  cases xs with
  | nil =>
    cases ys with
    | nil => exact ⟨rfl,(List.cons.inj same).2⟩
    | cons y ys =>
      obtain ⟨c,rest,first,other⟩ := starts y (others y List.mem_cons_self)
      rw [List.map_cons,glue_cons,first] at same
      exact absurd (List.cons.inj same).1.symm other
  | cons x xs =>
    cases ys with
    | nil =>
      obtain ⟨c,rest,first,other⟩ := starts x (here x List.mem_cons_self)
      rw [List.map_cons,glue_cons,first] at same
      exact absurd (List.cons.inj same).1 other
    | cons y ys =>
      rw [List.forall_mem_cons] at each others
      simp only [List.map_cons,glue_cons,List.flatMap_map,List.append_assoc,List.cons_append,List.nil_append] at same
      obtain ⟨rfl,tail⟩ := each.1 y others.1 _ _ (opens xs r) (opens ys s) same
      obtain ⟨rfl,rest⟩ := rest_cancel separates closes apart each.2 others.2 tail
      exact ⟨rfl,rest⟩

end Sequences

end Kit.Delimited
