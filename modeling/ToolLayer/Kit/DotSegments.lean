import Mathlib.Data.List.Basic

/-! Dot-segment removal (RFC 3986, section 5.2.4) on the segments of an absolute
path, over any alphabet of segments with a "here" and an "up" class. -/
namespace Kit.DotSegments

variable {A : Type*} (here up : A → Bool) (blank : A)

/-- Consumes the segments left to right; `out` is the output so far, last segment
first. A trailing dot segment leaves the empty segment after its slash. -/
def remove : List A → List A → List A
  | out, [] => out.reverse
  | out, [last] =>
    if here last then (blank::out).reverse
    else if up last then (blank::out.tail).reverse
    else (last::out).reverse
  | out, s::next::rest =>
    if here s then remove out (next::rest)
    else if up s then remove out.tail (next::rest)
    else remove (s::out) (next::rest)

theorem length_remove_le (out segments : List A) :
    (remove here up blank out segments).length ≤ out.length + segments.length := by
  induction out, segments using remove.induct here up with
  | case1 out => simp [remove]
  | case2 out last h => simp [remove,h]
  | case3 out last h u => simp [remove,h,u]
  | case4 out last h u => simp [remove,h,u]
  | case5 out s next rest h ih =>
    rw [remove,if_pos h]
    simp only [List.length_cons] at ih ⊢
    omega
  | case6 out s next rest h u ih =>
    rw [remove,if_neg h,if_pos u]
    simp only [List.length_cons,List.length_tail] at ih ⊢
    omega
  | case7 out s next rest h u ih =>
    rw [remove,if_neg h,if_neg u]
    simp only [List.length_cons] at ih ⊢
    omega

theorem remove_cons (out : List A) (s : A) {rest : List A} (more : rest ≠ []) :
    remove here up blank out (s::rest) =
      if here s then remove here up blank out rest
      else if up s then remove here up blank out.tail rest
      else remove here up blank (s::out) rest := by
  cases rest with
  | nil => exact absurd rfl more
  | cons next rest => rw [remove]

/-- Segments of neither class pass through. -/
theorem remove_plain (out front : List A) (last : A)
    (plain : ∀ s ∈ front, here s = false ∧ up s = false) :
    remove here up blank out (front ++ [last]) = remove here up blank (front.reverse ++ out) [last] := by
  induction front generalizing out with
  | nil => rfl
  | cons s front ih =>
    obtain ⟨h,u⟩ := plain s (by simp)
    rw [List.cons_append,remove_cons here up blank out s (by simp),h,u,if_neg (by simp),if_neg (by simp),
      ih (s::out) (fun t member => plain t (by simp [member]))]
    simp

/-- A dot segment before the last one costs at least one position. -/
theorem length_remove_lt (out front : List A) (last : A) (dotted : ∃ s ∈ front, here s = true ∨ up s = true) :
    (remove here up blank out (front ++ [last])).length < out.length + (front ++ [last]).length := by
  induction front generalizing out with
  | nil => simp at dotted
  | cons s front ih =>
    rw [List.cons_append,remove_cons here up blank out s (by simp),List.length_cons]
    split
    next h =>
      have bound := length_remove_le here up blank out (front ++ [last])
      omega
    next h =>
      split
      next u =>
        have bound := length_remove_le here up blank out.tail (front ++ [last])
        rw [List.length_tail] at bound
        omega
      next u =>
        have later : ∃ t ∈ front, here t = true ∨ up t = true := by
          obtain ⟨t,member,dot⟩ := dotted
          rcases List.mem_cons.mp member with rfl | tail
          · exact absurd dot (by simp [h,u])
          · exact ⟨t,tail,dot⟩
        have bound := ih (s::out) later
        rw [List.length_cons] at bound
        omega

/-- The number of segments is kept exactly when no dot segment stands before the
last one and the last one goes up only from the root. -/
theorem length_remove_eq_iff (front : List A) (last : A) (disjoint : here last = true → up last = false) :
    (remove here up blank [] (front ++ [last])).length = (front ++ [last]).length ↔
      (∀ s ∈ front, here s = false ∧ up s = false) ∧ (up last = true → front = []) := by
  constructor
  · intro kept
    have plain : ∀ s ∈ front, here s = false ∧ up s = false := by
      intro s member
      by_contra dot
      have dotted : here s = true ∨ up s = true := by
        cases h : here s
        · exact Or.inr (by simpa [h] using dot)
        · exact Or.inl rfl
      have lost := length_remove_lt here up blank [] front last ⟨s,member,dotted⟩
      rw [List.length_nil] at lost
      omega
    refine ⟨plain,fun goesUp => ?_⟩
    have notHere : here last = false := by
      cases h : here last
      · rfl
      · rw [disjoint h] at goesUp
        cases goesUp
    rw [remove_plain here up blank [] front last plain,remove,notHere,goesUp] at kept
    simp only [Bool.false_eq_true,if_false,if_true,List.append_nil,List.length_reverse,List.length_cons,
      List.length_tail,List.length_append,List.length_nil] at kept
    exact List.length_eq_zero_iff.mp (by omega)
  · rintro ⟨plain,top⟩
    rw [remove_plain here up blank [] front last plain,remove]
    split
    next h => simp
    next h =>
      split
      next u => simp [top u]
      next u => simp

/-- With no dot segment before the last one, the others stay where they are. -/
theorem remove_of_plain (front : List A) (last : A) (plain : ∀ s ∈ front, here s = false ∧ up s = false)
    (top : up last = true → front = []) :
    remove here up blank [] (front ++ [last]) =
      front ++ [if here last = true ∨ up last = true then blank else last] := by
  rw [remove_plain here up blank [] front last plain,remove]
  cases h : here last
  · cases u : up last
    · simp
    · simp [top u]
  · simp

end Kit.DotSegments
