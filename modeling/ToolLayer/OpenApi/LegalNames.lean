import Mathlib.Data.List.Chain
import Mathlib.Data.List.TakeWhile
import ToolLayer.Contracts.Documents
import ToolLayer.OpenApi.Naming

/-! The names derived for tools: what they are made of, and that a name made once is left alone. -/
namespace ToolLayer.OpenApi
open Python Kit Kit.Result

/-- Words of lower-case letters and digits with single underscores between them. -/
structure Tidy (s : Str) : Prop where
  points : ∀ c ∈ s, Patterns.lowerAlnum c = true ∨ isUnderscore c = true
  single : s.IsChain (fun a b => ¬ (isUnderscore a = true ∧ isUnderscore b = true))
  starts : ∀ c ∈ s.head?, isUnderscore c = false
  ends : ∀ c ∈ s.getLast?, isUnderscore c = false

section Points

theorem lowerAlnum_alnum {c : CodePoint} (lower : Patterns.lowerAlnum c = true) : c.isAlnum = true := by
  rw [Patterns.lowerAlnum,Bool.or_eq_true] at lower
  rw [CodePoint.isAlnum,CodePoint.isAlpha,Bool.or_eq_true,Bool.or_eq_true]
  rcases lower with letter | digit
  · exact Or.inl (Or.inr letter)
  · exact Or.inr digit

theorem underscore_of_alnum {c : CodePoint} (alnum : c.isAlnum = true) : isUnderscore c = false := by
  rw [isUnderscore,beq_eq_false_iff_ne]
  rintro rfl
  exact absurd alnum (by decide)

theorem asciiLower_point {c : CodePoint} (point : c.isAlnum = true ∨ isUnderscore c = true) :
    Patterns.lowerAlnum c.asciiLower = true ∨ isUnderscore c.asciiLower = true := by
  rcases point with alnum | mark
  · left
    unfold CodePoint.asciiLower
    split
    next upper =>
      rw [CodePoint.isUpper,CodePoint.between,Bool.and_eq_true,decide_eq_true_eq,decide_eq_true_eq] at upper
      have value : (Fin.ofNat 0x110000 (c.val + 0x20)).val = c.val + 0x20 := by
        rw [Fin.val_ofNat]
        omega
      rw [Patterns.lowerAlnum,CodePoint.isLower,CodePoint.between,value,Bool.or_eq_true,Bool.and_eq_true,decide_eq_true_eq,
        decide_eq_true_eq]
      left
      omega
    next other =>
      rw [CodePoint.isAlnum,CodePoint.isAlpha,Bool.or_eq_true,Bool.or_eq_true] at alnum
      rw [Patterns.lowerAlnum,Bool.or_eq_true]
      tauto
  · right
    rw [isUnderscore,beq_iff_eq] at mark
    rw [mark]
    decide

theorem underscore_asciiLower (c : CodePoint) : isUnderscore c.asciiLower = isUnderscore c := by
  cases mark : isUnderscore c with
  | true =>
    rw [isUnderscore,beq_iff_eq] at mark
    rw [mark]
    decide
  | false =>
    rw [isUnderscore,beq_eq_false_iff_ne] at mark ⊢
    exact fun lowered => mark (CodePoint.eq_of_asciiLower lowered (by decide))

theorem asciiLower_of_lowerAlnum {c : CodePoint} (point : Patterns.lowerAlnum c = true ∨ isUnderscore c = true) :
    c.asciiLower = c := by
  unfold CodePoint.asciiLower
  rw [if_neg]
  intro upper
  rw [CodePoint.isUpper,CodePoint.between,Bool.and_eq_true,decide_eq_true_eq,decide_eq_true_eq] at upper
  rcases point with lower | mark
  · simp only [Patterns.lowerAlnum,CodePoint.isLower,CodePoint.isDigit,CodePoint.between,Bool.or_eq_true,Bool.and_eq_true,
      decide_eq_true_eq] at lower
    omega
  · rw [isUnderscore,beq_iff_eq] at mark
    rw [mark] at upper
    exact absurd upper (by decide)

theorem upper_of_point {c : CodePoint} (point : Patterns.lowerAlnum c = true ∨ isUnderscore c = true) : c.isUpper = false := by
  by_contra upper
  have kept := asciiLower_of_lowerAlnum point
  unfold CodePoint.asciiLower at kept
  rw [if_pos (by simpa using upper)] at kept
  have value := congrArg (fun x => Fin.val x) kept
  simp only [Fin.val_ofNat] at value
  have bound : c.val ≤ 0x5A := by
    simp only [CodePoint.isUpper,CodePoint.between,Bool.not_eq_false,Bool.and_eq_true,decide_eq_true_eq] at upper
    exact upper.2
  omega

end Points

section Stripping

theorem mem_of_mem_strip {s : Str} {c : CodePoint} (member : c ∈ Str.rstrip isUnderscore (Str.lstrip isUnderscore s)) : c ∈ s := by
  rw [Str.rstrip,List.mem_reverse] at member
  have inside := (List.dropWhile_suffix _).subset member
  rw [List.mem_reverse] at inside
  exact (List.dropWhile_suffix _).subset inside

theorem prefix_rstrip (s : Str) : Str.rstrip isUnderscore s <+: s := by
  have back := List.reverse_prefix.mpr (List.dropWhile_suffix (l := s.reverse) isUnderscore)
  rwa [List.reverse_reverse] at back

theorem infix_strip (s : Str) : Str.rstrip isUnderscore (Str.lstrip isUnderscore s) <:+: s :=
  (prefix_rstrip _).isInfix.trans (List.dropWhile_suffix _).isInfix

theorem head_lstrip (s : Str) : ∀ c ∈ (Str.lstrip isUnderscore s).head?, isUnderscore c = false := by
  intro c first
  have stopped := List.head?_dropWhile_not isUnderscore s
  rw [Str.lstrip] at first
  rw [Option.mem_def.mp first] at stopped
  exact stopped

theorem getLast_rstrip (s : Str) : ∀ c ∈ (Str.rstrip isUnderscore s).getLast?, isUnderscore c = false := by
  intro c last
  rw [Str.rstrip,List.getLast?_reverse] at last
  exact head_lstrip s.reverse c last

theorem head_strip (s : Str) : ∀ c ∈ (Str.rstrip isUnderscore (Str.lstrip isUnderscore s)).head?, isUnderscore c = false := by
  intro c first
  have front : Str.rstrip isUnderscore (Str.lstrip isUnderscore s) <+: Str.lstrip isUnderscore s := prefix_rstrip _
  obtain ⟨more,whole⟩ := front
  refine head_lstrip s c ?_
  rw [← whole,List.head?_append,Option.mem_def.mp first]
  rfl

/-- Nothing is left of a text exactly if it is made of underscores. -/
theorem strip_eq_nil {s : Str} : Str.rstrip isUnderscore (Str.lstrip isUnderscore s) = [] ↔ ∀ c ∈ s, isUnderscore c = true := by
  rw [Str.rstrip,List.reverse_eq_nil_iff,List.dropWhile_eq_nil_iff]
  simp only [List.mem_reverse]
  constructor
  · intro all
    have whole := List.takeWhile_append_dropWhile (p := isUnderscore) (l := s)
    intro c member
    rw [← whole] at member
    rcases List.mem_append.mp member with front | back
    · exact List.all_eq_true.mp (List.all_takeWhile (p := isUnderscore) (l := s)) c front
    · exact all c back
  · exact fun all c member => all c ((List.dropWhile_suffix _).subset member)

theorem strip_of_bare {s : Str} (starts : ∀ c ∈ s.head?, isUnderscore c = false)
    (ends : ∀ c ∈ s.getLast?, isUnderscore c = false) : Str.rstrip isUnderscore (Str.lstrip isUnderscore s) = s := by
  have still : ∀ t : Str, (∀ c ∈ t.head?, isUnderscore c = false) → t.dropWhile isUnderscore = t := by
    intro t first
    cases t with
    | nil => rfl
    | cons c rest => rw [List.dropWhile_cons_of_neg (by rw [first c rfl]; exact Bool.false_ne_true)]
  rw [Str.lstrip,still s starts,Str.rstrip,still s.reverse (by rw [List.head?_reverse]; exact ends),List.reverse_reverse]

end Stripping

section Collapsing

/-- What is left of a run of other code points is one underscore. -/
theorem collapse_points (inRun : Bool) (s : Str) : ∀ c ∈ collapse inRun s, c.isAlnum = true ∨ isUnderscore c = true := by
  induction s generalizing inRun with
  | nil => exact fun _ none_ => nomatch none_
  | cons d rest ih =>
    rw [collapse]
    split
    next alnum => exact List.forall_mem_cons.mpr ⟨Or.inl alnum,ih false⟩
    next =>
      split
      next => exact ih true
      next => exact List.forall_mem_cons.mpr ⟨Or.inr (by decide),ih true⟩

theorem collapse_single (inRun : Bool) (s : Str) :
    (collapse inRun s).IsChain (fun a b => ¬ (isUnderscore a = true ∧ isUnderscore b = true)) ∧
      (inRun = true → ∀ c ∈ (collapse inRun s).head?, isUnderscore c = false) := by
  induction s generalizing inRun with
  | nil => exact ⟨.nil,fun _ _ none_ => nomatch none_⟩
  | cons d rest ih =>
    rw [collapse]
    split
    next alnum =>
      have letter := underscore_of_alnum alnum
      refine ⟨List.isChain_cons.mpr ⟨fun b _ both => ?_,(ih false).1⟩,fun _ c first => ?_⟩
      · rw [letter] at both
        exact absurd both.1 Bool.false_ne_true
      · obtain rfl := Option.some.inj first
        exact letter
    next =>
      split
      next => exact ⟨(ih true).1,fun _ => (ih true).2 rfl⟩
      next other =>
        refine ⟨List.isChain_cons.mpr ⟨fun b first both => ?_,(ih true).1⟩,fun run => absurd run other⟩
        rw [(ih true).2 rfl b first] at both
        exact absurd both.2 Bool.false_ne_true

theorem mem_collapse {s : Str} {c : CodePoint} (alnum : c.isAlnum = true) (inRun : Bool) : c ∈ collapse inRun s ↔ c ∈ s := by
  induction s generalizing inRun with
  | nil => exact Iff.rfl
  | cons d rest ih =>
    have other : d.isAlnum = false → c ≠ d := by
      rintro not rfl
      rw [alnum] at not
      cases not
    rw [collapse]
    split
    next => rw [List.mem_cons,List.mem_cons,ih false]
    next not =>
      have apart := other (by simpa using not)
      have mark : c ≠ CodePoint.ofChar '_' := by
        rintro rfl
        exact absurd alnum (by decide)
      split
      next => rw [List.mem_cons,ih true,or_iff_right apart]
      next => rw [List.mem_cons,List.mem_cons,ih true,or_iff_right apart,or_iff_right mark]

theorem mem_camelBoundaries {s : Str} {c : CodePoint} (alnum : c.isAlnum = true) (previous : Option CodePoint) :
    c ∈ camelBoundaries previous s ↔ c ∈ s := by
  have mark : c ≠ CodePoint.ofChar '_' := by
    rintro rfl
    exact absurd alnum (by decide)
  induction s generalizing previous with
  | nil => exact Iff.rfl
  | cons d rest ih =>
    have tail : c ∈ camelBoundaries (some d) rest ↔ c ∈ rest := ih (some d)
    rw [camelBoundaries]
    split
    next => rw [List.mem_cons,List.mem_cons,List.mem_cons,tail,or_iff_right mark]
    next => rw [List.mem_cons,List.mem_cons,tail]

theorem mem_acronymBoundaries {s : Str} {c : CodePoint} (alnum : c.isAlnum = true) (previous : Option CodePoint) :
    c ∈ acronymBoundaries previous s ↔ c ∈ s := by
  have mark : c ≠ CodePoint.ofChar '_' := by
    rintro rfl
    exact absurd alnum (by decide)
  induction s generalizing previous with
  | nil => exact Iff.rfl
  | cons d rest ih =>
    have tail : c ∈ acronymBoundaries (some d) rest ↔ c ∈ rest := ih (some d)
    rw [acronymBoundaries]
    split
    next => rw [List.mem_cons,List.mem_cons,List.mem_cons,tail,or_iff_right mark]
    next => rw [List.mem_cons,List.mem_cons,tail]

/-- What is made of any text is tidy. -/
theorem tidy_snakeCase (value : Str) : Tidy (snakeCase value) := by
  have inside := infix_strip (collapse false (acronymBoundaries none (camelBoundaries none value)))
  rw [snakeCase]
  refine ⟨?_,?_,?_,?_⟩
  · intro c member
    obtain ⟨d,stripped,rfl⟩ := List.mem_map.mp member
    exact asciiLower_point (collapse_points _ _ d (inside.subset stripped))
  · rw [List.isChain_map]
    simp only [underscore_asciiLower]
    exact List.IsChain.infix (collapse_single false _).1 inside
  · intro c first
    rw [List.head?_map] at first
    obtain ⟨d,there,rfl⟩ := Option.mem_map.mp first
    rw [underscore_asciiLower]
    exact head_strip _ d there
  · intro c last
    rw [List.getLast?_map] at last
    obtain ⟨d,there,rfl⟩ := Option.mem_map.mp last
    rw [underscore_asciiLower]
    exact getLast_rstrip _ d there

/-- Nothing is left of a text without letters and digits, and of no other. -/
theorem snakeCase_eq_nil {value : Str} : snakeCase value = [] ↔ ∀ c ∈ value, c.isAlnum = false := by
  rw [snakeCase,List.map_eq_nil_iff,strip_eq_nil]
  constructor
  · intro all c member
    rw [← Bool.not_eq_true]
    intro alnum
    have kept : c ∈ collapse false (acronymBoundaries none (camelBoundaries none value)) := by
      rw [mem_collapse alnum,mem_acronymBoundaries alnum,mem_camelBoundaries alnum]
      exact member
    have mark := all c kept
    rw [underscore_of_alnum alnum] at mark
    cases mark
  · intro none_ c member
    rcases collapse_points _ _ c member with alnum | mark
    · rw [mem_collapse alnum,mem_acronymBoundaries alnum,mem_camelBoundaries alnum] at member
      rw [none_ c member] at alnum
      cases alnum
    · exact mark

end Collapsing

section Normal

theorem camelBoundaries_id {s : Str} (lower : ∀ c ∈ s, c.isUpper = false) (previous : Option CodePoint) :
    camelBoundaries previous s = s := by
  induction s generalizing previous with
  | nil => rfl
  | cons c rest ih =>
    rw [List.forall_mem_cons] at lower
    rw [camelBoundaries,lower.1,Bool.and_false,if_neg Bool.false_ne_true,ih lower.2]

theorem acronymBoundaries_id {s : Str} (lower : ∀ c ∈ s, c.isUpper = false) (previous : Option CodePoint) :
    acronymBoundaries previous s = s := by
  induction s generalizing previous with
  | nil => rfl
  | cons c rest ih =>
    rw [List.forall_mem_cons] at lower
    rw [acronymBoundaries,lower.1,Bool.and_false,Bool.false_and,if_neg Bool.false_ne_true,ih lower.2]

theorem collapse_id {s : Str} (inRun : Bool) (points : ∀ c ∈ s, c.isAlnum = true ∨ isUnderscore c = true)
    (single : s.IsChain (fun a b => ¬ (isUnderscore a = true ∧ isUnderscore b = true)))
    (starts : inRun = true → ∀ c ∈ s.head?, isUnderscore c = false) : collapse inRun s = s := by
  induction s generalizing inRun with
  | nil => rfl
  | cons c rest ih =>
    rw [List.forall_mem_cons] at points
    obtain ⟨next,single⟩ := List.isChain_cons.mp single
    rw [collapse]
    rcases points.1 with alnum | mark
    · rw [if_pos alnum,ih false points.2 single (fun run => absurd run Bool.false_ne_true)]
    · have other : ¬ c.isAlnum = true := by
        intro alnum
        rw [underscore_of_alnum alnum] at mark
        cases mark
      have out : ¬ inRun = true := by
        intro run
        rw [starts run c rfl] at mark
        cases mark
      have follows : ∀ d ∈ rest.head?, isUnderscore d = false := by
        intro d first
        rw [← Bool.not_eq_true]
        exact fun again => next d first ⟨mark,again⟩
      rw [if_neg other,if_neg out,ih true points.2 single (fun _ => follows)]
      rw [isUnderscore,beq_iff_eq] at mark
      rw [mark]

/-- A tidy text is left alone. -/
theorem Tidy.snakeCase_eq {s : Str} (tidy : Tidy s) : snakeCase s = s := by
  have lower : ∀ c ∈ s, c.isUpper = false := fun c member => upper_of_point (tidy.points c member)
  have points : ∀ c ∈ s, c.isAlnum = true ∨ isUnderscore c = true :=
    fun c member => (tidy.points c member).imp_left lowerAlnum_alnum
  rw [snakeCase,camelBoundaries_id lower,acronymBoundaries_id lower,
    collapse_id false points tidy.single (fun run => absurd run Bool.false_ne_true)]
  rw [strip_of_bare tidy.starts tidy.ends]
  have kept : s.map CodePoint.asciiLower = s.map id :=
    List.map_congr_left (fun c member => asciiLower_of_lowerAlnum (tidy.points c member))
  rw [kept,List.map_id]

/-- Two tidy texts with an underscore between them. -/
theorem Tidy.append {s t : Str} (first : Tidy s) (second : Tidy t) (filled : s ≠ []) (follows : t ≠ []) :
    Tidy (s ++ CodePoint.ofChar '_' :: t) := by
  refine ⟨?_,?_,?_,?_⟩
  · intro c member
    rcases List.mem_append.mp member with front | back
    · exact first.points c front
    · rcases List.mem_cons.mp back with rfl | later
      · exact Or.inr (by decide)
      · exact second.points c later
  · refine List.isChain_append.mpr ⟨first.single,List.isChain_cons.mpr ⟨?_,second.single⟩,?_⟩
    · intro c head both
      rw [second.starts c head] at both
      exact absurd both.2 Bool.false_ne_true
    · intro c last d _ both
      rw [first.ends c last] at both
      exact absurd both.1 Bool.false_ne_true
  · obtain ⟨c,rest,rfl⟩ := List.exists_cons_of_ne_nil filled
    exact first.starts
  · intro c last
    refine second.ends c ?_
    rw [List.getLast?_append,List.getLast?_cons,List.getLast?_eq_some_getLast follows] at *
    simpa using last

end Normal

section Names

theorem tidy_of_lowerAlnum {s : Str} (points : ∀ c ∈ s, Patterns.lowerAlnum c = true) : Tidy s := by
  have plain : ∀ c ∈ s, isUnderscore c = false := fun c member => underscore_of_alnum (lowerAlnum_alnum (points c member))
  refine ⟨fun c member => Or.inl (points c member),?_,fun c first => plain c (List.mem_of_head? first),
    fun c last => plain c (List.mem_of_getLast? last)⟩
  refine List.IsChain.imp_of_mem_imp ?_ (List.isChain_iff_forall_rel_of_append_cons_cons.mpr (fun _ _ _ _ _ => trivial))
  intro a b inside _ _ both
  rw [plain a inside] at both
  exact absurd both.1 Bool.false_ne_true

theorem tidy_word {s : Str} (points : s.all Patterns.lowerAlnum = true) : Tidy s :=
  tidy_of_lowerAlnum (List.all_eq_true.mp points)

theorem Tidy.front {s : Str} (tidy : Tidy s) (n : Nat) : Tidy (Str.rstrip isUnderscore (s.take n)) := by
  have inside := prefix_rstrip (s.take n)
  have single := List.IsChain.prefix (tidy.single.take n) inside
  refine ⟨fun c member => tidy.points c (List.mem_of_mem_take (inside.subset member)),single,?_,getLast_rstrip _⟩
  intro c first
  obtain ⟨more,whole⟩ := inside.trans (List.take_prefix n s)
  refine tidy.starts c ?_
  rw [← whole,List.head?_append,Option.mem_def.mp first]
  rfl

/-- A name that is legal and that normalization leaves alone. -/
structure Settled (name : Str) : Prop where
  tidy : Tidy name
  letter : name.head?.any CodePoint.isLower = true
  short : name.length ≤ maxToolNameLength

theorem underscore_of_lower {c : CodePoint} (letter : c.isLower = true) : isUnderscore c = false :=
  underscore_of_alnum (lowerAlnum_alnum (by rw [Patterns.lowerAlnum,letter,Bool.true_or]))

/-- A long name keeps its start and ends in a digest. -/
theorem settled_bounded {candidate : Str} (tidy : Tidy candidate) (letter : candidate.head?.any CodePoint.isLower = true) :
    Settled (bounded candidate) := by
  rw [bounded]
  split
  next short => exact ⟨tidy,letter,short⟩
  next =>
    obtain ⟨c,rest,rfl⟩ := List.exists_cons_of_ne_nil (l := candidate) (by
      rintro rfl
      cases letter)
    have lower : c.isLower = true := letter
    have length : ((Sha256.hexdigest (Utf8.bytes (c::rest))).take 10).length = 10 := by
      rw [List.length_take,Sha256.length_hexdigest]
      rfl
    have digest : Tidy ((Sha256.hexdigest (Utf8.bytes (c::rest))).take 10) := by
      refine tidy_of_lowerAlnum (fun d member => ?_)
      have hex := Sha256.isHex_of_mem_hexdigest (List.mem_of_mem_take member)
      simp only [CodePoint.isHex,CodePoint.between,Bool.or_eq_true,Bool.and_eq_true,decide_eq_true_eq] at hex
      simp only [Patterns.lowerAlnum,CodePoint.isLower,CodePoint.between,Bool.or_eq_true,Bool.and_eq_true,decide_eq_true_eq]
      rcases hex with digit | low
      · exact Or.inr digit
      · left
        omega
    dsimp only
    rw [length]
    have front : ∃ more, Str.rstrip isUnderscore ((c::rest).take (maxToolNameLength - 10 - 1)) = c::more := by
      rw [show maxToolNameLength - 10 - 1 = 52 + 1 by decide,List.take_succ_cons,Str.rstrip,List.reverse_cons,
        List.dropWhile_append]
      split
      next =>
        rw [List.dropWhile_cons_of_neg (by rw [underscore_of_lower lower]; exact Bool.false_ne_true)]
        exact ⟨[],rfl⟩
      next => exact ⟨_,by rw [List.reverse_append]; rfl⟩
    obtain ⟨more,shape⟩ := front
    have kept := tidy.front (maxToolNameLength - 10 - 1)
    refine ⟨kept.append digest (by rw [shape]; exact List.cons_ne_nil _ _) (by
      rw [← List.length_pos_iff,length]
      decide),?_,?_⟩
    · rw [shape,List.cons_append,List.head?_cons]
      exact lower
    · have bound := (prefix_rstrip ((c::rest).take (maxToolNameLength - 10 - 1))).length_le
      rw [List.length_take] at bound
      rw [List.length_append,List.length_cons,length]
      have value : maxToolNameLength = 64 := rfl
      omega

/-- `^[a-z][a-z0-9_]*$` and at most 64 characters. -/
structure LegalName (name : Str) : Prop where
  pattern : Patterns.toolName name = true
  short : name.length ≤ 64

theorem Settled.legal {name : Str} (settled : Settled name) : LegalName name := by
  refine ⟨?_,settled.short⟩
  rw [Patterns.toolName,settled.letter,Bool.true_and,List.all_eq_true]
  intro c member
  rw [Bool.or_eq_true]
  exact settled.tidy.points c member

theorem Settled.normalize {name : Str} (settled : Settled name) : normalizeToolName name = .ok name := by
  have letter := settled.letter
  obtain ⟨c,rest,rfl⟩ := List.exists_cons_of_ne_nil (l := name) (by
    rintro rfl
    cases letter)
  have lower : c.isLower = true := letter
  have other : c.isDigit = false := by
    rw [← Bool.not_eq_true]
    intro digit
    simp only [CodePoint.isLower,CodePoint.isDigit,CodePoint.between,Bool.and_eq_true,decide_eq_true_eq] at lower digit
    omega
  rw [normalizeToolName,settled.tidy.snakeCase_eq]
  dsimp only
  rw [other,if_neg Bool.false_ne_true,bounded,if_pos settled.short]

theorem normalizeToolName_cases (value : Str) :
    ((∀ c ∈ value, c.isAlnum = false) ∧ normalizeToolName value = .error .valueError) ∨
    ((∃ c ∈ value, c.isAlnum = true) ∧ ∃ name, normalizeToolName value = .ok name ∧ Settled name) := by
  have empty := @snakeCase_eq_nil value
  have tidy := tidy_snakeCase value
  rw [normalizeToolName]
  cases shape : snakeCase value with
  | nil => exact Or.inl ⟨empty.mp shape,rfl⟩
  | cons c rest =>
    rw [shape] at tidy
    have some_ : ∃ c ∈ value, c.isAlnum = true := by
      by_contra none_
      push Not at none_
      have blank := empty.mpr (fun c member => by simpa using none_ c member)
      rw [shape] at blank
      cases blank
    refine Or.inr ⟨some_,_,rfl,settled_bounded ?_ ?_⟩
    · split
      next =>
        have prefixed := (tidy_word (s := Str.lit "op") (by decide)).append tidy (by decide) (List.cons_ne_nil _ _)
        exact prefixed
      next => exact tidy
    · split
      next => rfl
      next other =>
        have point := tidy.points c List.mem_cons_self
        rw [tidy.starts c rfl] at point
        rcases point with lower | mark
        · rw [Patterns.lowerAlnum,Bool.or_eq_true,or_iff_left other] at lower
          exact lower
        · cases mark

end Names

section Paths

theorem tidy_join {words : List Str} (each : ∀ w ∈ words, Tidy w ∧ w ≠ []) (filled : words ≠ []) :
    Tidy (Str.join "_" words) ∧ Str.join "_" words ≠ [] := by
  induction words with
  | nil => exact absurd rfl filled
  | cons word rest ih =>
    rw [List.forall_mem_cons] at each
    cases rest with
    | nil => exact each.1
    | cons next rest =>
      obtain ⟨tidy,some_⟩ := ih each.2 (List.cons_ne_nil _ _)
      have whole : Str.join "_" (word::next::rest) = word ++ CodePoint.ofChar '_' :: Str.join "_" (next::rest) := by
        rw [Str.join,Split.glue,List.append_assoc]
        rfl
      rw [whole]
      exact ⟨each.1.1.append tidy each.1.2 some_,List.append_ne_nil_of_left_ne_nil each.1.2 _⟩

theorem tidy_nameOrNothing (value : Str) : ∀ w ∈ nameOrNothing (snakeCase value), Tidy w ∧ w ≠ [] := by
  unfold nameOrNothing
  split
  next => exact fun _ none_ => nomatch none_
  next filled =>
    intro w member
    rw [List.mem_singleton.mp member]
    exact ⟨tidy_snakeCase value,by simpa using filled⟩

theorem tidy_segmentWords (segment : Str) : ∀ w ∈ segmentWords segment, Tidy w ∧ w ≠ [] := by
  unfold segmentWords
  split
  next =>
    split
    next => exact fun _ none_ => nomatch none_
    next words _ =>
      rw [List.forall_mem_cons]
      exact ⟨⟨tidy_word (by decide),by decide⟩,tidy_nameOrNothing _⟩
  next => exact tidy_nameOrNothing _

theorem tidy_methodVerb (method : HttpMethod) : Tidy (methodVerb method) ∧ methodVerb method ≠ [] ∧
    (methodVerb method).head?.any CodePoint.isLower = true := by
  have points : (methodVerb method).all Patterns.lowerAlnum = true := by
    cases method <;> decide
  refine ⟨tidy_word points,?_,?_⟩
  · cases method <;> decide
  · cases method <;> decide

variable [Unicode]

theorem tidy_pathWords (path : Str) : ∀ w ∈ pathWords path, Tidy w ∧ w ≠ [] := by
  unfold pathWords
  split
  next => exact fun _ none_ => nomatch none_
  next first rest _ =>
    intro w member
    rcases List.mem_append.mp member with front | back
    · split at front
      next => cases front
      next => exact tidy_segmentWords first w front
    · obtain ⟨segment,_,inside⟩ := List.mem_flatMap.mp back
      exact tidy_segmentWords segment w inside

theorem settled_deriveToolName (method : HttpMethod) (path : Str) : Settled (deriveToolName method path) := by
  obtain ⟨verb,filled,letter⟩ := tidy_methodVerb method
  have starts : ∀ rest : Str, (methodVerb method ++ rest).head?.any CodePoint.isLower = true := by
    intro rest
    obtain ⟨c,tail,shape⟩ := List.exists_cons_of_ne_nil filled
    rw [shape] at letter ⊢
    exact letter
  have words := tidy_pathWords path
  unfold deriveToolName
  split
  next =>
    refine settled_bounded ?_ (starts _)
    exact verb.append (t := Str.lit "root") (tidy_word (by decide)) filled (by decide)
  next other =>
    obtain ⟨tidy,some_⟩ := tidy_join words other
    exact settled_bounded (verb.append tidy filled some_) (starts _)

/-- `_METHOD_VERB.get(method.lower())`: the method that a text spells. -/
def methodOf (method : Str) : Option HttpMethod := HttpMethod.all.find? (fun m => m.lower == Unicode.lower method)

/-- `derive_tool_name` on the text of a method. -/
def deriveToolNameFor (method path : Str) : Except PyExc Str :=
  match methodOf method with
  | none => .error .valueError
  | some m => .ok (deriveToolName m path)

/-- Derived names are legal, and stay what they are when they are normalized again. -/
theorem toolNames_legal :
    (∀ value : Str, (normalizeToolName value = .error .valueError ↔ ∀ c ∈ value, c.isAlnum = false) ∧
      ((∃ c ∈ value, c.isAlnum = true) → ∃ name, normalizeToolName value = .ok name ∧ LegalName name ∧
        normalizeToolName name = .ok name)) ∧
    (∀ method path : Str, (methodOf method).isSome = true → ∃ name, deriveToolNameFor method path = .ok name ∧ LegalName name ∧
      normalizeToolName name = .ok name) := by
  refine ⟨fun value => ⟨?_,?_⟩,?_⟩
  · rcases normalizeToolName_cases value with ⟨none_,raised⟩ | ⟨⟨c,member,alnum⟩,name,done,_⟩
    · exact ⟨fun _ => none_,fun _ => raised⟩
    · refine ⟨fun raised => (nomatch done.symm.trans raised),fun none_ => ?_⟩
      rw [none_ c member] at alnum
      cases alnum
  · rintro ⟨c,member,alnum⟩
    rcases normalizeToolName_cases value with ⟨none_,_⟩ | ⟨_,name,done,settled⟩
    · rw [none_ c member] at alnum
      cases alnum
    · exact ⟨name,done,settled.legal,settled.normalize⟩
  · intro method path supported
    obtain ⟨m,found⟩ := Option.isSome_iff_exists.mp supported
    have settled := settled_deriveToolName m path
    exact ⟨_,by rw [deriveToolNameFor,found],settled.legal,settled.normalize⟩

end Paths

end ToolLayer.OpenApi
