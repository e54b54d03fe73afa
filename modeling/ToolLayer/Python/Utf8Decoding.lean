import Mathlib.Tactic.IntervalCases
import ToolLayer.Python.Utf8

/-! What `bytes.decode("utf-8")` makes of bytes: text without surrogates, and the text itself
if the bytes are its encoding. -/
namespace Python.Utf8

theorem matched_le (ranges : List (Nat × Nat)) (rest : Bytes) : matched ranges rest ≤ ranges.length := by
  induction ranges generalizing rest with
  | nil => simp [matched]
  | cons range ranges ih =>
    cases rest with
    | nil => simp [matched]
    | cons b rest =>
      have tail := ih rest
      rw [matched]
      split
      · rw [List.length_cons]
        omega
      · omega

section Widths

variable {a b c d : Byte} {tail : Bytes}

end Widths

section Encoded

variable {rest : Bytes}

theorem matched_next {low high : Nat} {ranges : List (Nat × Nat)} {b : Byte} (above : low ≤ b.val) (below : b.val ≤ high) :
    matched ((low,high)::ranges) (b::rest) = matched ranges rest + 1 := by
  rw [matched,if_pos (by simp [continues,above,below])]

@[simp] theorem matched_nil (b : Bytes) : matched [] b = 0 := by simp [matched]

theorem continuations_two {q : Nat} (least : 2 ≤ q) (most : q < 32) :
    continuations (byte (0xC0 + q)) = some [(0x80,0xBF)] := by
  interval_cases q <;> rfl

theorem continuations_three {q : Nat} (most : q < 16) : continuations (byte (0xE0 + q)) =
    some [(if q = 0 then 0xA0 else 0x80,if q = 13 then 0x9F else 0xBF),(0x80,0xBF)] := by
  interval_cases q <;> rfl

theorem continuations_four {q : Nat} (most : q < 5) : continuations (byte (0xF0 + q)) =
    some [(if q = 0 then 0x90 else 0x80,if q = 4 then 0x8F else 0xBF),(0x80,0xBF),(0x80,0xBF)] := by
  interval_cases q <;> rfl

/-- A continuation byte as it is written. -/
theorem matched_continuation {low high n : Nat} {ranges : List (Nat × Nat)} (above : low ≤ 0x80 + n % 64)
    (below : 0x80 + n % 64 ≤ high) :
    matched ((low,high)::ranges) (byte (0x80 + n % 64) :: rest) = matched ranges rest + 1 := by
  have value : (byte (0x80 + n % 64)).val = 0x80 + n % 64 := val_byte (by omega)
  exact matched_next (by rw [value]; exact above) (by rw [value]; exact below)

/-- The continuation bytes that are written are in the ranges their lead byte calls for. -/
theorem matched_encoded (rest : Bytes) {c : CodePoint} (plain : c.isSurrogate = false) {lead : Byte} {more : Bytes}
    (shape : encodePoint c = lead::more) : ∃ ranges, continuations lead = some ranges ∧
      matched ranges (more ++ rest) = ranges.length ∧ ranges.length = more.length := by
  have bound := c.isLt
  rw [CodePoint.isSurrogate,CodePoint.between,Bool.and_eq_false_iff,decide_eq_false_iff_not,decide_eq_false_iff_not] at plain
  unfold encodePoint at shape
  dsimp only at shape
  split at shape
  next one =>
    cases shape
    refine ⟨[],?_,matched_nil _,rfl⟩
    rw [continuations,val_byte (by omega)]
    simp only [if_pos one]
  next more =>
    split at shape
    next two =>
      cases shape
      refine ⟨_,continuations_two (by omega) (by omega),?_,rfl⟩
      rw [List.cons_append,matched_continuation (by omega) (by omega),matched_nil]
      rfl
    next more =>
      split at shape
      next three =>
        cases shape
        refine ⟨_,continuations_three (by omega),?_,rfl⟩
        rw [List.cons_append,List.cons_append,matched_continuation,matched_continuation (by omega) (by omega),matched_nil]
        · rfl
        · split
          · omega
          · omega
        · split
          · omega
          · omega
      next four =>
        cases shape
        refine ⟨_,continuations_four (by omega),?_,rfl⟩
        rw [List.cons_append,List.cons_append,List.cons_append,matched_continuation,
          matched_continuation (by omega) (by omega),matched_continuation (by omega) (by omega),matched_nil]
        · rfl
        · split
          · omega
          · omega
        · split
          · omega
          · omega

theorem decodePoint_encoded {c : CodePoint} (plain : c.isSurrogate = false) {lead : Byte} {more : Bytes}
    (shape : encodePoint c = lead::more) : decodePoint lead (more ++ rest) = .inl (c,more.length + 1) := by
  have read : readPoint (lead::(more ++ rest)) = some (c.val,rest) := by
    rw [← List.cons_append,← shape]
    exact readPoint_encodePoint c rest
  obtain ⟨ranges,called,all,same⟩ := matched_encoded rest plain shape
  have back : (Fin.ofNat 0x110000 c.val) = c := Fin.ext (Nat.mod_eq_of_lt c.isLt)
  rw [decodePoint,called]
  dsimp only
  rw [if_pos all,read,all,same]
  dsimp only
  rw [back]

theorem decodeFrom_skip (skipped rest : Bytes) : decodeFrom skipped.length (skipped ++ rest) = decodeFrom 0 rest := by
  induction skipped with
  | nil => rfl
  | cons b skipped ih => exact ih

theorem decodeFrom_bytes {s : Str} (plain : s.scalar = true) : decodeFrom 0 (bytes s) = s.map some := by
  induction s with
  | nil => rfl
  | cons c s ih =>
    rw [Str.scalar,List.all_cons,Bool.and_eq_true,Bool.not_eq_true'] at plain
    obtain ⟨lead,more,shape⟩ := List.exists_cons_of_ne_nil (encodePoint_ne_nil c)
    rw [bytes,List.flatMap_cons,shape,List.cons_append,decodeFrom,decodePoint_encoded plain.1 shape]
    dsimp only
    rw [Nat.add_sub_cancel,decodeFrom_skip,List.map_cons]
    exact congrArg _ (ih plain.2)

/-- Text comes back from its encoding. -/
theorem decodeReplace_bytes {s : Str} (plain : s.scalar = true) : decodeReplace (bytes s) = s := by
  rw [decodeReplace,decodeFrom_bytes plain,List.map_map]
  exact List.map_id'' (fun _ => rfl) s

end Encoded

end Python.Utf8
