import Mathlib.Data.List.Basic

/-! Cutting a list at separators and gluing it back, and how a letter-to-word
substitution acts on the pieces. -/
namespace Kit.Split

variable {A B : Type*}

/-- The maximal separator-free runs, in order; there is always at least one. -/
def cut (sep : A → Bool) : List A → List (List A)
  | [] => [[]]
  | x::rest =>
    if sep x then [] :: cut sep rest
    else match cut sep rest with
      | [] => [[x]]
      | piece::pieces => (x::piece) :: pieces

def glue (sep : List A) : List (List A) → List A
  | [] => []
  | [piece] => piece
  | piece::next::pieces => piece ++ sep ++ glue sep (next::pieces)

theorem cut_ne_nil (sep : A → Bool) (xs : List A) : cut sep xs ≠ [] := by
  cases xs with
  | nil => simp [cut]
  | cons x rest =>
    unfold cut
    split
    · simp
    · split <;> simp

@[simp] theorem cut_nil (sep : A → Bool) : cut sep [] = [[]] := rfl

theorem cut_sep (sep : A → Bool) (x : A) (rest : List A) (at_sep : sep x = true) :
    cut sep (x::rest) = [] :: cut sep rest := by simp [cut,at_sep]

theorem cut_other (sep : A → Bool) (x : A) (rest piece : List A) (pieces : List (List A))
    (inside : sep x = false) (tail : cut sep rest = piece::pieces) :
    cut sep (x::rest) = (x::piece)::pieces := by simp [cut,inside,tail]

theorem cut_append_clean (sep : A → Bool) (word rest piece : List A) (pieces : List (List A))
    (clean : ∀ x ∈ word, sep x = false) (tail : cut sep rest = piece::pieces) :
    cut sep (word ++ rest) = (word ++ piece)::pieces := by
  induction word with
  | nil => exact tail
  | cons x word ih =>
    exact cut_other sep x (word ++ rest) (word ++ piece) pieces (clean x (by simp))
      (ih (fun y member => clean y (by simp [member])))

theorem cut_clean (sep : A → Bool) (word : List A) (clean : ∀ x ∈ word, sep x = false) :
    cut sep word = [word] := by
  simpa using cut_append_clean sep word [] [] [] clean rfl

/-- Pieces without separators come back from their glued text. -/
theorem cut_glue (sep : A → Bool) {x : A} (at_sep : sep x = true) {pieces : List (List A)} (some_ : pieces ≠ [])
    (clean : ∀ piece ∈ pieces, ∀ y ∈ piece, sep y = false) : cut sep (glue [x] pieces) = pieces := by
  induction pieces with
  | nil => exact absurd rfl some_
  | cons piece pieces ih =>
    rw [List.forall_mem_cons] at clean
    cases pieces with
    | nil => exact cut_clean sep piece clean.1
    | cons next pieces =>
      rw [glue,List.append_assoc,List.singleton_append]
      have tail := ih (List.cons_ne_nil next pieces) clean.2
      have whole := cut_append_clean sep piece (x::glue [x] (next::pieces)) [] (next::pieces) clean.1
        (by rw [cut_sep sep x _ at_sep,tail])
      rwa [List.append_nil] at whole

/-- Cutting loses only the separators. -/
theorem glue_cut [DecidableEq A] (x : A) (xs : List A) : glue [x] (cut (fun y => y == x) xs) = xs := by
  induction xs with
  | nil => rfl
  | cons y rest ih =>
    obtain ⟨piece,pieces,tail⟩ := List.exists_cons_of_ne_nil (cut_ne_nil (fun y => y == x) rest)
    rw [tail] at ih
    by_cases same : y = x
    · rw [cut_sep (fun y => y == x) y rest (beq_iff_eq.mpr same),tail,glue,ih,same]
      rfl
    · rw [cut_other (fun y => y == x) y rest piece pieces (beq_eq_false_iff_ne.mpr same) tail]
      cases pieces with
      | nil => exact congrArg (List.cons y) ih
      | cons next pieces => exact congrArg (List.cons y) ih

theorem mem_glue {sep : List A} {x : A} {pieces : List (List A)} (member : x ∈ glue sep pieces) :
    x ∈ sep ∨ ∃ piece ∈ pieces, x ∈ piece := by
  induction pieces with
  | nil => cases member
  | cons piece pieces ih =>
    cases pieces with
    | nil => exact Or.inr ⟨piece,List.mem_cons_self,member⟩
    | cons next pieces =>
      rw [glue,List.mem_append,List.mem_append] at member
      rcases member with (front | between) | back
      · exact Or.inr ⟨piece,List.mem_cons_self,front⟩
      · exact Or.inl between
      · rcases ih back with between | ⟨found,present,inside⟩
        · exact Or.inl between
        · exact Or.inr ⟨found,List.mem_cons_of_mem _ present,inside⟩

theorem mem_cut_clean (sep : A → Bool) (xs : List A) :
    ∀ piece ∈ cut sep xs, ∀ x ∈ piece, sep x = false := by
  induction xs with
  | nil => simp
  | cons x rest ih =>
    obtain ⟨piece,pieces,tail⟩ := List.exists_cons_of_ne_nil (cut_ne_nil sep rest)
    rw [tail] at ih
    by_cases at_sep : sep x = true
    · rw [cut_sep sep x rest at_sep,tail]
      intro chosen member
      rcases List.mem_cons.mp member with rfl | inside
      · simp
      · exact ih chosen inside
    · have inside : sep x = false := by simpa using at_sep
      rw [cut_other sep x rest piece pieces inside tail]
      intro chosen member
      rcases List.mem_cons.mp member with rfl | later
      · intro y present
        rcases List.mem_cons.mp present with rfl | old
        · exact inside
        · exact ih piece (by simp) y old
      · exact ih chosen (by simp [later])

theorem mem_of_mem_cut (sep : A → Bool) (xs : List A) :
    ∀ piece ∈ cut sep xs, ∀ x ∈ piece, x ∈ xs := by
  induction xs with
  | nil => simp
  | cons x rest ih =>
    obtain ⟨piece,pieces,tail⟩ := List.exists_cons_of_ne_nil (cut_ne_nil sep rest)
    rw [tail] at ih
    by_cases at_sep : sep x = true
    · rw [cut_sep sep x rest at_sep,tail]
      intro chosen member y inside
      rcases List.mem_cons.mp member with rfl | later
      · cases inside
      · exact List.mem_cons_of_mem _ (ih chosen later y inside)
    · rw [cut_other sep x rest piece pieces (by simpa using at_sep) tail]
      intro chosen member y inside
      rcases List.mem_cons.mp member with rfl | later
      · rcases List.mem_cons.mp inside with rfl | old
        · exact List.mem_cons_self
        · exact List.mem_cons_of_mem _ (ih piece (by simp) y old)
      · exact List.mem_cons_of_mem _ (ih chosen (by simp [later]) y inside)

theorem length_le_of_mem_cut (sep : A → Bool) (xs : List A) : ∀ piece ∈ cut sep xs, piece.length ≤ xs.length := by
  induction xs with
  | nil => simp
  | cons x rest ih =>
    obtain ⟨piece,pieces,tail⟩ := List.exists_cons_of_ne_nil (cut_ne_nil sep rest)
    rw [tail,List.forall_mem_cons] at ih
    intro chosen member
    rw [List.length_cons]
    by_cases at_sep : sep x = true
    · rw [cut_sep sep x rest at_sep,tail] at member
      rcases List.mem_cons.mp member with rfl | inside
      · exact Nat.zero_le _
      · rcases List.mem_cons.mp inside with rfl | later
        · exact Nat.le_succ_of_le ih.1
        · exact Nat.le_succ_of_le (ih.2 chosen later)
    · rw [cut_other sep x rest piece pieces (by simpa using at_sep) tail] at member
      rcases List.mem_cons.mp member with rfl | later
      · rw [List.length_cons]
        exact Nat.succ_le_succ ih.1
      · exact Nat.le_succ_of_le (ih.2 chosen later)

/-- A substitution that fixes every separator and never writes one maps the
pieces of a list to the pieces of its image. -/
theorem cut_flatMap (sep : A → Bool) (sep' : B → Bool) (f : A → List B) (xs : List A)
    (fixed : ∀ x ∈ xs, sep x = true → ∃ y, sep' y = true ∧ f x = [y])
    (clean : ∀ x ∈ xs, sep x = false → ∀ y ∈ f x, sep' y = false) :
    cut sep' (xs.flatMap f) = (cut sep xs).map (List.flatMap f) := by
  induction xs with
  | nil => rfl
  | cons x rest ih =>
    have tail := ih (fun y member => fixed y (by simp [member])) (fun y member => clean y (by simp [member]))
    rw [List.flatMap_cons]
    by_cases at_sep : sep x = true
    · obtain ⟨y,ysep,image⟩ := fixed x (by simp) at_sep
      rw [image,List.singleton_append,cut_sep sep' _ _ ysep,cut_sep sep x rest at_sep,tail]
      rfl
    · have inside : sep x = false := by simpa using at_sep
      obtain ⟨piece,pieces,shape⟩ := List.exists_cons_of_ne_nil (cut_ne_nil sep rest)
      rw [cut_other sep x rest piece pieces inside shape]
      rw [shape,List.map_cons] at tail
      rw [cut_append_clean sep' (f x) _ _ _ (clean x (by simp) inside) tail]
      simp

end Kit.Split
