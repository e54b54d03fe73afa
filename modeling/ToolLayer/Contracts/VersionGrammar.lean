import ToolLayer.Contracts.Version
import ToolLayer.Python.JsonParse

/-! The versions of Semantic Versioning 2.0.0 without build metadata, as texts written from
numbers and identifiers, and which of them `parse_version` reads. -/
namespace ToolLayer
open Python Kit Kit.Result

section Numbers

theorem natural_no {c : CodePoint} (other : c.isDigit = false) (n : Nat) : c ∉ Decimal.natural n := by
  intro member
  rw [Decimal.isDigit_of_mem_natural member] at other
  cases other

theorem natural_clean {c : CodePoint} (other : c.isDigit = false) (n : Nat) :
    ∀ d ∈ Decimal.natural n, (d == c) = false := by
  intro d member
  rw [beq_eq_false_iff_ne]
  intro same
  exact natural_no other n (same ▸ member)

theorem text_natural (n : Nat) : Decimal.text (n : Int) = Decimal.natural n := by
  rw [Decimal.text,if_neg (by omega),Int.natAbs_natCast]

theorem str_natural {E : Type} {n : Nat} (small : n < 10 ^ Decimal.maxDigits) :
    (Decimal.str (n : Int) : Except (Exc E) Str) = .ok (Decimal.natural n) := by
  rw [Decimal.str,if_pos (by simpa [Decimal.printable] using small),text_natural]

theorem numericIdentifier_natural (n : Nat) : Patterns.numericIdentifier (Decimal.natural n) = true := by
  rcases Nat.eq_zero_or_pos n with rfl | positive
  · decide
  · obtain ⟨c,tail,shape,nonzero⟩ := Json.natural_start positive
    have digits : (Decimal.natural n).all CodePoint.isDigit = true :=
      List.all_eq_true.mpr (fun d member => Decimal.isDigit_of_mem_natural member)
    unfold Patterns.numericIdentifier
    rw [shape] at digits ⊢
    change ((c::tail).all CodePoint.isDigit && (tail.isEmpty || c != CodePoint.ofChar '0')) = true
    rw [digits,Bool.true_and,Bool.or_eq_true,bne_iff_ne]
    exact Or.inr nonzero

/-- A digit is the one of its value. -/
theorem ofChar_digitChar {c : CodePoint} (digit : c.isDigit = true) :
    CodePoint.ofChar (c.val - 0x30).digitChar = c := by
  rw [CodePoint.isDigit,CodePoint.between,Bool.and_eq_true,decide_eq_true_eq,decide_eq_true_eq] at digit
  have value : ∀ d : Fin 10, d.val.digitChar.toNat = d.val + 0x30 := by decide
  have read : (c.val - 0x30).digitChar.toNat = c.val - 0x30 + 0x30 := value ⟨c.val - 0x30,by omega⟩
  apply Fin.ext
  rw [CodePoint.val_ofChar,read]
  omega

theorem natural_digit {d : Nat} (small : d < 10) : Decimal.natural d = [CodePoint.ofChar d.digitChar] := by
  rw [Decimal.natural,Nat.toDigits_of_lt_base small,List.map_singleton]

theorem natural_append {n d : Nat} (positive : 0 < n) (small : d < 10) :
    Decimal.natural (10 * n + d) = Decimal.natural n ++ [CodePoint.ofChar d.digitChar] := by
  rw [Decimal.natural,Nat.toDigits_of_base_le (by omega) (by omega),List.map_append,List.map_singleton,Decimal.natural,
    show (10 * n + d) / 10 = n by omega,show (10 * n + d) % 10 = d by omega]

/-- Digits behind a number write on. -/
theorem natural_fold (s : Str) {n : Nat} (positive : 0 < n) (digits : ∀ c ∈ s, c.isDigit = true) :
    Decimal.natural (s.foldl (fun n c => 10 * n + (c.val - 0x30)) n) = Decimal.natural n ++ s := by
  induction s generalizing n with
  | nil => rw [List.foldl_nil,List.append_nil]
  | cons c rest ih =>
    rw [List.forall_mem_cons] at digits
    have range := digits.1
    rw [CodePoint.isDigit,CodePoint.between,Bool.and_eq_true,decide_eq_true_eq,decide_eq_true_eq] at range
    rw [List.foldl_cons,ih (by omega) digits.2,natural_append positive (by omega),ofChar_digitChar digits.1,
      List.append_assoc,List.singleton_append]

/-- What `0|[1-9][0-9]*` matches is a number as it is written. -/
theorem numericIdentifier_iff {s : Str} : Patterns.numericIdentifier s = true ↔ ∃ n, s = Decimal.natural n := by
  constructor
  · intro numeric
    unfold Patterns.numericIdentifier at numeric
    split at numeric
    next => cases numeric
    next c rest =>
      rw [Bool.and_eq_true,List.all_eq_true,List.forall_mem_cons,Bool.or_eq_true,List.isEmpty_iff,bne_iff_ne] at numeric
      obtain ⟨⟨digit,digits⟩,short⟩ := numeric
      have range := digit
      rw [CodePoint.isDigit,CodePoint.between,Bool.and_eq_true,decide_eq_true_eq,decide_eq_true_eq] at range
      have front : Decimal.natural (c.val - 0x30) = [c] := by
        rw [natural_digit (by omega),ofChar_digitChar digit]
      rcases short with rfl | nonzero
      · exact ⟨c.val - 0x30,front.symm⟩
      · have positive : 0 < c.val - 0x30 := by
          rcases Nat.eq_zero_or_pos (c.val - 0x30) with zero | positive
          · exact absurd (Fin.ext (show c.val = (CodePoint.ofChar '0').val from by
              change c.val = 0x30
              omega)) nonzero
          · exact positive
        have whole := natural_fold rest positive digits
        rw [front] at whole
        exact ⟨_,whole.symm⟩
  · rintro ⟨n,rfl⟩
    exact numericIdentifier_natural n

theorem decimalInt_natural (n : Nat) : decimalInt (Decimal.natural n) =
    if n < 10 ^ Decimal.maxDigits then .ok n else .error .valueError := by
  have length : (Decimal.natural n).length ≤ Decimal.maxDigits ↔ n < 10 ^ Decimal.maxDigits := by
    rw [Decimal.natural,List.length_map]
    exact Nat.length_toDigits_le_iff (by omega) (by decide)
  unfold decimalInt
  split
  next short => rw [if_pos (length.mp short),Json.digitsValue_natural]
  next long => rw [if_neg (fun small => long (length.mpr small))]

end Numbers

section Grammar

/-- The identifiers behind the hyphen; a release has none. -/
def tagText : List Str → Str
  | [] => []
  | identifiers => CodePoint.ofChar '-' :: Str.join "." identifiers

/-- What `ContractVersion` keeps of them. -/
def prereleaseText : List Str → Option Str
  | [] => none
  | identifiers => some (Str.join "." identifiers)

/-- Letters, digits and hyphens, at least one. -/
def Identifier (s : Str) : Prop := s ≠ [] ∧ ∀ c ∈ s, Patterns.identifierPoint c = true

/-- Digits alone are a number and have no leading zeros. -/
def Unpadded (s : Str) : Prop := (∀ c ∈ s, c.isDigit = true) → ∃ n, s = Decimal.natural n

/-- Three numbers and the identifiers of a prerelease. -/
structure VersionShape where
  major : Nat
  minor : Nat
  patch : Nat
  identifiers : List Str
  spelled : ∀ i ∈ identifiers, Identifier i

namespace VersionShape

def text (v : VersionShape) : Str :=
  Decimal.natural v.major ++ Str.lit "." ++ Decimal.natural v.minor ++ Str.lit "." ++ Decimal.natural v.patch ++
    tagText v.identifiers

/-- Every number is one `int` reads. -/
def Short (v : VersionShape) : Prop :=
  v.major < 10 ^ Decimal.maxDigits ∧ v.minor < 10 ^ Decimal.maxDigits ∧ v.patch < 10 ^ Decimal.maxDigits

def version (v : VersionShape) : ContractVersion := ⟨v.major,v.minor,v.patch,prereleaseText v.identifiers⟩

/-- The groups of the match. -/
def parts (v : VersionShape) : Str × Str × Str × Option Str :=
  (Decimal.natural v.major,Decimal.natural v.minor,Decimal.natural v.patch,prereleaseText v.identifiers)

/-- `major.minor.patch`. -/
def core (v : VersionShape) : Str :=
  Decimal.natural v.major ++ CodePoint.ofChar '.' ::
    (Decimal.natural v.minor ++ CodePoint.ofChar '.' :: Decimal.natural v.patch)

end VersionShape

/-- A Semantic Versioning 2.0.0 value without build metadata. -/
def IsSemver (s : Str) : Prop := ∃ v : VersionShape, s = v.text ∧ ∀ i ∈ v.identifiers, Unpadded i

end Grammar

section Pattern

variable {v w : VersionShape}

theorem text_eq (v : VersionShape) : v.text = v.core ++ tagText v.identifiers := by
  simp only [VersionShape.text,VersionShape.core,List.append_assoc,List.cons_append]
  rfl

theorem dash_not_mem_core (v : VersionShape) : CodePoint.ofChar '-' ∉ v.core := by
  simp only [VersionShape.core,List.mem_append,List.mem_cons,not_or]
  exact ⟨natural_no (by decide) _,by decide,natural_no (by decide) _,by decide,natural_no (by decide) _⟩

theorem core_eq (v : VersionShape) : Split.glue [CodePoint.ofChar '.']
    [Decimal.natural v.major,Decimal.natural v.minor,Decimal.natural v.patch] = v.core := by
  simp only [Split.glue,VersionShape.core,List.append_assoc,List.singleton_append]

theorem split_core (v : VersionShape) : Str.split v.core (CodePoint.ofChar '.') =
    [Decimal.natural v.major,Decimal.natural v.minor,Decimal.natural v.patch] := by
  rw [← core_eq]
  refine Split.cut_glue (fun x => x == CodePoint.ofChar '.') (beq_self_eq_true (CodePoint.ofChar '.'))
    (List.cons_ne_nil _ _) ?_
  intro piece member
  rcases List.mem_cons.mp member with rfl | member
  · exact natural_clean (by decide) _
  · rcases List.mem_cons.mp member with rfl | member
    · exact natural_clean (by decide) _
    · cases List.mem_singleton.mp member
      exact natural_clean (by decide) _

theorem dot_clean {i : Str} (spelled : Identifier i) : ∀ c ∈ i, (c == CodePoint.ofChar '.') = false := by
  intro c member
  rw [beq_eq_false_iff_ne]
  intro same
  have point := spelled.2 c member
  rw [same] at point
  exact absurd point (by decide)

theorem split_join {identifiers : List Str} (filled : identifiers ≠ []) (spelled : ∀ i ∈ identifiers, Identifier i) :
    Str.split (Str.join "." identifiers) (CodePoint.ofChar '.') = identifiers :=
  Split.cut_glue (fun x => x == CodePoint.ofChar '.') (beq_self_eq_true (CodePoint.ofChar '.')) filled (fun i member => dot_clean (spelled i member))

theorem identifier_iff {s : Str} : (!s.isEmpty && s.all Patterns.identifierPoint) = true ↔ Identifier s := by
  rw [Bool.and_eq_true,Bool.not_eq_true',List.isEmpty_eq_false_iff,List.all_eq_true]
  rfl

/-- Every shape is matched, group by group. -/
theorem semverParts_text (v : VersionShape) : Patterns.semverParts v.text = some v.parts := by
  have numeric : (Patterns.numericIdentifier (Decimal.natural v.major) && Patterns.numericIdentifier (Decimal.natural v.minor) &&
      Patterns.numericIdentifier (Decimal.natural v.patch)) = true := by
    simp only [numericIdentifier_natural,Bool.and_self]
  rw [text_eq]
  unfold Patterns.semverParts
  cases shape : v.identifiers with
  | nil =>
    rw [tagText,List.append_nil,Str.partition_absent (dash_not_mem_core v)]
    dsimp only
    rw [split_core]
    dsimp only
    rw [numeric]
    simp [VersionShape.parts,prereleaseText,shape]
  | cons first rest =>
    have spelled := v.spelled
    rw [shape] at spelled
    rw [tagText,Str.partition_append (dash_not_mem_core v)]
    · dsimp only
      rw [split_core]
      dsimp only
      have tagged : ((first::rest).all fun p => !p.isEmpty && p.all Patterns.identifierPoint) = true :=
        List.all_eq_true.mpr (fun i member => identifier_iff.mpr (spelled i member))
      rw [numeric,split_join (List.cons_ne_nil _ _) spelled,tagged]
      simp [VersionShape.parts,prereleaseText,shape]
    · exact List.cons_ne_nil _ _

/-- What is matched is a shape. -/
theorem exists_shape {s : Str} {parts : Str × Str × Str × Option Str} (matched : Patterns.semverParts s = some parts) :
    ∃ v : VersionShape, s = v.text ∧ parts = v.parts := by
  unfold Patterns.semverParts at matched
  obtain ⟨core,tagged,prerelease,parted⟩ : ∃ core tagged prerelease,
      Str.partition (CodePoint.ofChar '-') s = (core,tagged,prerelease) := ⟨_,_,_,rfl⟩
  have whole := Str.partition_eq _ s parted
  rw [parted] at matched
  dsimp only at matched
  split at matched
  next major minor patch cut =>
    split at matched
    next reads =>
      simp only [Bool.and_eq_true,numericIdentifier_iff] at reads
      obtain ⟨⟨⟨⟨a,rfl⟩,⟨b,rfl⟩⟩,⟨c,rfl⟩⟩,tag⟩ := reads
      have glued := Split.glue_cut (CodePoint.ofChar '.') core
      rw [Str.split] at cut
      rw [cut] at glued
      cases tagged with
      | false =>
        refine ⟨⟨a,b,c,[],fun _ none_ => nomatch none_⟩,?_,(Option.some.inj matched).symm⟩
        rw [text_eq,whole,← glued,← core_eq]
        rfl
      | true =>
        have spelled : ∀ i ∈ Str.split prerelease (CodePoint.ofChar '.'), Identifier i :=
          fun i member => identifier_iff.mp (List.all_eq_true.mp tag i member)
        have joined : Str.join "." (Str.split prerelease (CodePoint.ofChar '.')) = prerelease :=
          Split.glue_cut (CodePoint.ofChar '.') prerelease
        obtain ⟨first,rest,shape⟩ := List.exists_cons_of_ne_nil (Split.cut_ne_nil (fun x => x == CodePoint.ofChar '.') prerelease)
        change Str.split prerelease (CodePoint.ofChar '.') = first::rest at shape
        rw [shape] at spelled joined
        refine ⟨⟨a,b,c,first::rest,spelled⟩,?_,?_⟩
        · rw [text_eq,whole,← glued,← core_eq]
          change _ = _ ++ CodePoint.ofChar '-' :: Str.join "." (first::rest)
          rw [joined]
          rfl
        · rw [← Option.some.inj matched]
          change _ = (_,_,_,some (Str.join "." (first::rest)))
          rw [joined]
          rfl
    next => cases matched
  next => cases matched

theorem join_injective {p q : List Str} (filled : p ≠ []) (other : q ≠ []) (first : ∀ i ∈ p, Identifier i)
    (second : ∀ i ∈ q, Identifier i) (same : Str.join "." p = Str.join "." q) : p = q := by
  rw [← split_join filled first,same,split_join other second]

theorem version_injective (same : v.version = w.version) : v = w := by
  obtain ⟨major,minor,patch,p,spelled⟩ := v
  obtain ⟨_,_,_,q,written⟩ := w
  simp only [VersionShape.version,ContractVersion.mk.injEq] at same
  obtain ⟨rfl,rfl,rfl,tags⟩ := same
  have identifiers : p = q := by
    cases p with
    | nil =>
      cases q with
      | nil => rfl
      | cons j rest => cases tags
    | cons i rest =>
      cases q with
      | nil => cases tags
      | cons j more =>
        exact join_injective (List.cons_ne_nil _ _) (List.cons_ne_nil _ _) spelled written (Option.some.inj tags)
  subst identifiers
  rfl

theorem text_injective (same : v.text = w.text) : v = w := by
  have parts := semverParts_text v
  rw [same,semverParts_text] at parts
  have equal := Option.some.inj parts
  simp only [VersionShape.parts,Prod.mk.injEq] at equal
  obtain ⟨major,minor,patch,tags⟩ := equal
  apply version_injective
  rw [VersionShape.version,VersionShape.version,Decimal.natural_injective major,Decimal.natural_injective minor,
    Decimal.natural_injective patch,tags]

theorem newline_not_mem_text (v : VersionShape) : CodePoint.ofChar '\n' ∉ v.text := by
  have inside : ∀ identifiers : List Str, (∀ i ∈ identifiers, Identifier i) →
      CodePoint.ofChar '\n' ∉ Str.join "." identifiers := by
    intro identifiers spelled member
    rcases Split.mem_glue member with point | ⟨i,present,letter⟩
    · exact absurd point (by decide)
    · exact absurd ((spelled i present).2 _ letter) (by decide)
  rw [text_eq,VersionShape.core]
  simp only [List.mem_append,List.mem_cons,not_or]
  refine ⟨⟨natural_no (by decide) _,by decide,natural_no (by decide) _,by decide,natural_no (by decide) _⟩,?_⟩
  cases shape : v.identifiers with
  | nil => exact List.not_mem_nil
  | cons first rest =>
    have spelled := v.spelled
    rw [shape] at spelled
    change CodePoint.ofChar '\n' ∉ CodePoint.ofChar '-' :: Str.join "." (first::rest)
    rw [List.mem_cons,not_or]
    exact ⟨by decide,inside _ spelled⟩

end Pattern

section Parsing

/-- `__str__`. -/
def ContractVersion.text (v : ContractVersion) : Except PyExc Str := do
  let major ← Decimal.str v.major
  let minor ← Decimal.str v.minor
  let patch ← Decimal.str v.patch
  let base := major ++ Str.lit "." ++ minor ++ Str.lit "." ++ patch
  match v.prerelease with
  | some (c::rest) => return base ++ CodePoint.ofChar '-' :: c::rest
  | _ => return base

/-- `_SEMVER` reads the shape in `s`: its `$` lets a final line break pass. -/
def Reads (s : Str) (v : VersionShape) : Prop := s = v.text ∨ s = v.text ++ [CodePoint.ofChar '\n']

variable {s : Str} {v : VersionShape}

theorem semverMatch_reads (reads : Reads s v) : semverMatch s = some v.parts := by
  rcases reads with rfl | rfl
  · rw [semverMatch,semverParts_text]
  · have unmatched : Patterns.semverParts (v.text ++ [CodePoint.ofChar '\n']) = none := by
      cases matched : Patterns.semverParts (v.text ++ [CodePoint.ofChar '\n']) with
      | none => rfl
      | some parts =>
        obtain ⟨w,same,_⟩ := exists_shape matched
        exact absurd (same ▸ List.mem_append_right _ List.mem_cons_self) (newline_not_mem_text w)
    rw [semverMatch,unmatched]
    simp [semverParts_text]

theorem exists_reads {parts : Str × Str × Str × Option Str} (matched : semverMatch s = some parts) : ∃ v, Reads s v := by
  unfold semverMatch at matched
  split at matched
  next found =>
    obtain ⟨v,same,_⟩ := exists_shape found
    exact ⟨v,Or.inl same⟩
  next =>
    split at matched
    next last =>
      obtain ⟨v,same,_⟩ := exists_shape matched
      refine ⟨v,Or.inr ?_⟩
      rw [← same,List.dropLast_append_getLast? _ last]
    next => cases matched

/-- The value of a shape, or the refusal of `int`. -/
theorem parseVersion_reads (reads : Reads s v) :
    (v.Short ∧ parseVersion (.str s) = .ok v.version) ∨ (¬ v.Short ∧ parseVersion (.str s) = .error .valueError) := by
  rw [parseVersion,semverMatch_reads reads,VersionShape.parts]
  dsimp only
  simp only [decimalInt_natural]
  by_cases major : v.major < 10 ^ Decimal.maxDigits
  · by_cases minor : v.minor < 10 ^ Decimal.maxDigits
    · by_cases patch : v.patch < 10 ^ Decimal.maxDigits
      · rw [if_pos major,if_pos minor,if_pos patch]
        exact Or.inl ⟨⟨major,minor,patch⟩,rfl⟩
      · rw [if_pos major,if_pos minor,if_neg patch]
        exact Or.inr ⟨fun short => patch short.2.2,rfl⟩
    · rw [if_pos major,if_neg minor]
      exact Or.inr ⟨fun short => minor short.2.1,rfl⟩
  · rw [if_neg major]
    exact Or.inr ⟨fun short => major short.1,rfl⟩

theorem parseVersion_unread (unread : ∀ v, ¬ Reads s v) :
    parseVersion (.str s) = .error (incompatible "version is not a Semantic Versioning value") := by
  rw [parseVersion]
  cases matched : semverMatch s with
  | none => rfl
  | some parts =>
    obtain ⟨v,reads⟩ := exists_reads matched
    exact absurd reads (unread v)

/-- A version is printed as the text of its shape. -/
theorem text_version (short : v.Short) : v.version.text = .ok v.text := by
  obtain ⟨major,minor,patch⟩ := short
  rw [ContractVersion.text,VersionShape.version]
  dsimp only
  rw [str_natural major,ok_bind,str_natural minor,ok_bind,str_natural patch,ok_bind,VersionShape.text]
  cases shape : v.identifiers with
  | nil =>
    rw [prereleaseText,tagText,List.append_nil]
    rfl
  | cons first rest =>
    have spelled := v.spelled first (shape ▸ List.mem_cons_self)
    obtain ⟨c,tail,letters⟩ := List.exists_cons_of_ne_nil spelled.1
    have filled : ∃ more, Str.join "." (first::rest) = c::more := by
      rw [letters]
      cases rest with
      | nil => exact ⟨tail,rfl⟩
      | cons next rest => exact ⟨_,rfl⟩
    obtain ⟨more,joined⟩ := filled
    change (match some (Str.join "." (first::rest)) with
      | some (c::rest) => _
      | _ => _) = Except.ok (_ ++ CodePoint.ofChar '-' :: Str.join "." (first::rest))
    rw [joined]
    rfl

/-- `parse_version` does with `s` what the grammar says: a value that prints as `s`, or the one refusal. -/
structure ParsesExactly (s : Str) : Prop where
  accepts : IsSemver s → ∃ v, parseVersion (.str s) = .ok v ∧ v.text = .ok s
  refuses : ¬ IsSemver s → ∃ message, parseVersion (.str s) = .error (incompatible message)

theorem ParsesExactly.text (exact_ : ParsesExactly s) {v : ContractVersion} (parsed : parseVersion (.str s) = .ok v) :
    v.text = .ok s := by
  by_cases semver : IsSemver s
  · obtain ⟨w,read,text⟩ := exact_.accepts semver
    cases read.symm.trans parsed
    exact text
  · obtain ⟨message,refused⟩ := exact_.refuses semver
    cases refused.symm.trans parsed

/-- The parser is exact on a text unless it is version-shaped with a line break at the end, a core
number of too many digits, or a numeric identifier with leading zeros. -/
theorem parseVersion_exact_iff (s : Str) : ParsesExactly s ↔
    ∀ v : VersionShape, Reads s v → s = v.text ∧ v.Short ∧ ∀ i ∈ v.identifiers, Unpadded i := by
  constructor
  · intro exact_ v reads
    have semver : IsSemver s := by
      by_contra other
      obtain ⟨message,refused⟩ := exact_.refuses other
      rcases parseVersion_reads reads with ⟨_,parsed⟩ | ⟨_,failed⟩
      · cases refused.symm.trans parsed
      · cases refused.symm.trans failed
    obtain ⟨w,same,unpadded⟩ := semver
    obtain ⟨value,parsed,_⟩ := exact_.accepts ⟨w,same,unpadded⟩
    have whole : s = v.text := by
      rcases reads with whole | broken
      · exact whole
      · rw [same] at broken
        exact absurd (broken ▸ List.mem_append_right _ List.mem_cons_self) (newline_not_mem_text w)
    have shape : v = w := text_injective (whole.symm.trans same)
    refine ⟨whole,?_,shape ▸ unpadded⟩
    rcases parseVersion_reads reads with ⟨short,_⟩ | ⟨_,failed⟩
    · exact short
    · cases parsed.symm.trans failed
  · intro sound
    refine ⟨?_,?_⟩
    · rintro ⟨v,same,_⟩
      obtain ⟨_,short,_⟩ := sound v (Or.inl same)
      rcases parseVersion_reads (Or.inl same) with ⟨_,parsed⟩ | ⟨long,_⟩
      · exact ⟨_,parsed,same ▸ text_version short⟩
      · exact absurd short long
    · intro other
      exact ⟨_,parseVersion_unread (fun v reads => other ⟨v,(sound v reads).1,(sound v reads).2.2⟩)⟩

/-- A line break behind a version is read over, and lost. -/
theorem line_break_accepted : ¬ ParsesExactly (Str.lit "1.0.0\n") := by
  intro exact_
  have text := exact_.text (v := ⟨1,0,0,none⟩) (by decide +kernel)
  exact absurd text (by decide +kernel)

end Parsing

end ToolLayer
