import Mathlib.Algebra.Group.Int.Defs
import Mathlib.Algebra.Group.Nat.Defs
import Mathlib.Data.List.Basic
import Mathlib.Order.Fin.Basic
import ToolLayer.Kit.Split

/-! Python text as sequences of code points. A lone surrogate is a code point
like any other here, as it is in a `str`; only encoding refuses it. -/
namespace Python

abbrev CodePoint := Fin 0x110000

instance codePointsNonzero : @NeZero Nat Zero.ofOfNat0 0x110000 := ⟨by decide⟩

instance codePointsLawful : LawfulBEq CodePoint := inferInstance

def CodePoint.ofChar (c : Char) : CodePoint :=
  ⟨c.toNat,by rcases c.valid with low | ⟨_,high⟩ <;> simp only [Char.toNat] <;> omega⟩

instance : Coe Char CodePoint := ⟨CodePoint.ofChar⟩

@[simp] theorem CodePoint.val_ofChar (c : Char) : (CodePoint.ofChar c).val = c.toNat := rfl

theorem CodePoint.ofChar_injective : Function.Injective CodePoint.ofChar := by
  intro c d equal
  have same : (CodePoint.ofChar c).val = (CodePoint.ofChar d).val := congrArg (fun x => Fin.val x) equal
  exact Char.toNat_inj.mp same

@[simp] theorem CodePoint.ofChar_inj (c d : Char) : CodePoint.ofChar c = CodePoint.ofChar d ↔ c = d :=
  CodePoint.ofChar_injective.eq_iff

abbrev Str := List CodePoint

instance Str.lawful : LawfulBEq Str := inferInstance

def Str.lit (s : String) : Str := s.toList.map CodePoint.ofChar

instance : Coe String Str := ⟨Str.lit⟩

@[simp] theorem Str.lit_inj (s t : String) : Str.lit s = Str.lit t ↔ s = t := by
  constructor
  · intro equal
    exact String.toList_inj.mp (List.map_injective_iff.mpr CodePoint.ofChar_injective equal)
  · exact congrArg Str.lit

namespace CodePoint

def between (low high : Nat) (c : CodePoint) : Bool := decide (low ≤ c.val) && decide (c.val ≤ high)

def isDigit (c : CodePoint) : Bool := c.between 0x30 0x39
def isUpper (c : CodePoint) : Bool := c.between 0x41 0x5A
def isLower (c : CodePoint) : Bool := c.between 0x61 0x7A
def isAlpha (c : CodePoint) : Bool := c.isUpper || c.isLower
def isAlnum (c : CodePoint) : Bool := c.isAlpha || c.isDigit
def isHex (c : CodePoint) : Bool := c.isDigit || c.between 0x61 0x66
def isAscii (c : CodePoint) : Bool := decide (c.val < 0x80)
def isSurrogate (c : CodePoint) : Bool := c.between 0xD800 0xDFFF

/-- `str.isspace` and the default set of `str.strip`. -/
def isSpace (c : CodePoint) : Bool :=
  c.between 0x09 0x0D || c.between 0x1C 0x20 || decide (c.val = 0x85) || decide (c.val = 0xA0) ||
  decide (c.val = 0x1680) || c.between 0x2000 0x200A || c.between 0x2028 0x2029 ||
  decide (c.val = 0x202F) || decide (c.val = 0x205F) || decide (c.val = 0x3000)

/-- `str.lower` on the ASCII letters; every other code point is kept. -/
def asciiLower (c : CodePoint) : CodePoint := if c.isUpper then Fin.ofNat _ (c.val + 0x20) else c

/-- Only a letter is what lowering makes of another code point. -/
theorem eq_of_asciiLower {c d : CodePoint} (lowered : asciiLower c = d) (mark : d.isAlnum = false) : c = d := by
  unfold asciiLower at lowered
  split at lowered
  next upper =>
    exfalso
    subst lowered
    rw [isUpper,between,Bool.and_eq_true,decide_eq_true_eq,decide_eq_true_eq] at upper
    have value : (Fin.ofNat 0x110000 (c.val + 0x20)).val = c.val + 0x20 := by
      rw [Fin.val_ofNat]
      omega
    simp only [isAlnum,isAlpha,isUpper,isLower,isDigit,between,value,Bool.or_eq_false_iff,Bool.and_eq_false_iff,
      decide_eq_false_iff_not] at mark
    omega
  next => exact lowered

def openingBrace : CodePoint := Fin.ofNat _ 0x7B
def closingBrace : CodePoint := Fin.ofNat _ 0x7D

end CodePoint

namespace Str

def startsWith (s pre : Str) : Bool := pre.isPrefixOf s
def endsWith (s post : Str) : Bool := post.isSuffixOf s

def lstrip (drop : CodePoint → Bool) (s : Str) : Str := s.dropWhile drop
def rstrip (drop : CodePoint → Bool) (s : Str) : Str := (s.reverse.dropWhile drop).reverse

/-- `str.strip()`. -/
def strip (s : Str) : Str := rstrip CodePoint.isSpace (lstrip CodePoint.isSpace s)

def split (s : Str) (c : CodePoint) : List Str := Kit.Split.cut (fun x => x == c) s
def join (sep : Str) (pieces : List Str) : Str := Kit.Split.glue sep pieces

/-- `str.partition` on one code point: before, whether it was found, after. -/
def partition (c : CodePoint) : Str → Str × Bool × Str
  | [] => ([],false,[])
  | x::rest =>
    if x = c then ([],true,rest)
    else let (before,found,after) := partition c rest; (x::before,found,after)

theorem partition_eq (c : CodePoint) (s : Str) {before after : Str} {found : Bool}
    (split : partition c s = (before,found,after)) : s = before ++ (if found then c::after else []) := by
  induction s generalizing before with
  | nil =>
    cases split
    rfl
  | cons x rest ih =>
    rw [partition] at split
    split at split
    next same =>
      cases split
      simp [same]
    next other =>
      cases tail : partition c rest with
      | mk front pair =>
        rw [tail] at split
        cases split
        rw [List.cons_append,← ih tail]

/-- Nothing new stands in the pieces. -/
theorem mem_of_partition (c : CodePoint) (s : Str) {d : CodePoint}
    (member : d ∈ (partition c s).1 ∨ d ∈ (partition c s).2.2) : d ∈ s := by
  have whole : s = (partition c s).1 ++ (if (partition c s).2.1 then c::(partition c s).2.2 else []) := partition_eq c s rfl
  rw [whole]
  rcases member with front | back
  · exact List.mem_append_left _ front
  · cases found : (partition c s).2.1 with
    | true => exact List.mem_append_right _ (List.mem_cons_of_mem _ back)
    | false =>
      have none_ : (partition c s).2.2 = [] := by
        clear whole back
        induction s with
        | nil => rfl
        | cons x rest ih =>
          rw [partition] at found ⊢
          split at found
          next => cases found
          next other =>
            rw [if_neg other]
            exact ih found
      rw [none_] at back
      cases back

theorem not_mem_partition (c : CodePoint) (s : Str) : c ∉ (partition c s).1 := by
  induction s with
  | nil => exact List.not_mem_nil
  | cons x rest ih =>
    rw [partition]
    split
    next => exact List.not_mem_nil
    next other =>
      rw [List.mem_cons,not_or]
      exact ⟨Ne.symm other,ih⟩

theorem partition_absent {c : CodePoint} {s : Str} (absent : c ∉ s) : partition c s = (s,false,[]) := by
  induction s with
  | nil => rfl
  | cons x rest ih =>
    rw [List.mem_cons,not_or] at absent
    rw [partition,if_neg (Ne.symm absent.1),ih absent.2]

theorem partition_append {c : CodePoint} {before : Str} (absent : c ∉ before) (after : Str) :
    partition c (before ++ c::after) = (before,true,after) := by
  induction before with
  | nil => rw [List.nil_append,partition,if_pos rfl]
  | cons x before ih =>
    rw [List.mem_cons,not_or] at absent
    rw [List.cons_append,partition,if_neg (Ne.symm absent.1),ih absent.2]

/-- `str.rpartition` on one code point; without a match everything is `after`. -/
def rpartition (c : CodePoint) (s : Str) : Str × Bool × Str :=
  match partition c s.reverse with
  | (after,true,before) => (before.reverse,true,after.reverse)
  | (_,false,_) => ([],false,s)

theorem mem_of_rpartition (c : CodePoint) (s : Str) {d : CodePoint} (member : d ∈ (rpartition c s).2.2) : d ∈ s := by
  unfold rpartition at member
  split at member
  next after before split =>
    rw [List.mem_reverse] at member
    exact List.mem_reverse.mp (mem_of_partition c s.reverse (Or.inl (split ▸ member)))
  next => exact member

/-- Left-to-right scan of `str.replace`; `skip` counts the code points of the
last match that are still to be passed over. -/
def replaceFrom (old new : Str) : Nat → Str → Str
  | _, [] => []
  | skip + 1, _::rest => replaceFrom old new skip rest
  | 0, c::rest =>
    if old.isPrefixOf (c::rest) then new ++ replaceFrom old new (old.length - 1) rest
    else c :: replaceFrom old new 0 rest

/-- `str.replace` for a non-empty pattern. -/
def replace (s old new : Str) : Str := replaceFrom old new 0 s

/-- `pattern in s`. -/
def contains (pattern : Str) : Str → Bool
  | [] => pattern.isEmpty
  | c::rest => pattern.isPrefixOf (c::rest) || contains pattern rest

/-- Code points only, no lone surrogate: what UTF-8 can encode. -/
def scalar (s : Str) : Bool := s.all (fun c => !c.isSurrogate)

/-- Code point order, the order of `str.__lt__` and of `sorted`. -/
def le : Str → Str → Bool
  | [], _ => true
  | _::_, [] => false
  | a::as, b::bs => decide (a < b) || (decide (a = b) && le as bs)

theorem le_refl (s : Str) : le s s = true := by
  induction s with
  | nil => rfl
  | cons a as ih => simp [le,ih]

theorem le_total (s t : Str) : le s t = true ∨ le t s = true := by
  induction s generalizing t with
  | nil => simp [le]
  | cons a as ih =>
    cases t with
    | nil => simp [le]
    | cons b bs =>
      simp only [le,Bool.or_eq_true,Bool.and_eq_true,decide_eq_true_eq]
      rcases lt_trichotomy a b with less | same | more
      · exact Or.inl (Or.inl less)
      · rcases ih bs with first | second
        · exact Or.inl (Or.inr ⟨same,first⟩)
        · exact Or.inr (Or.inr ⟨same.symm,second⟩)
      · exact Or.inr (Or.inl more)

theorem le_trans {s t u : Str} (first : le s t = true) (second : le t u = true) : le s u = true := by
  induction s generalizing t u with
  | nil => rfl
  | cons a as ih =>
    cases t with
    | nil => simp [le] at first
    | cons b bs =>
      cases u with
      | nil => simp [le] at second
      | cons c cs =>
        simp only [le,Bool.or_eq_true,Bool.and_eq_true,decide_eq_true_eq] at first second ⊢
        rcases first with ab | ⟨ab,tail⟩
        · rcases second with bc | ⟨bc,_⟩
          · exact Or.inl (lt_trans ab bc)
          · exact Or.inl (bc ▸ ab)
        · rcases second with bc | ⟨bc,rest⟩
          · exact Or.inl (ab ▸ bc)
          · exact Or.inr ⟨ab.trans bc,ih tail rest⟩

theorem le_antisymm {s t : Str} (first : le s t = true) (second : le t s = true) : s = t := by
  induction s generalizing t with
  | nil =>
    cases t with
    | nil => rfl
    | cons b bs => simp [le] at second
  | cons a as ih =>
    cases t with
    | nil => simp [le] at first
    | cons b bs =>
      simp only [le,Bool.or_eq_true,Bool.and_eq_true,decide_eq_true_eq] at first second
      rcases first with ab | ⟨ab,tail⟩
      · rcases second with ba | ⟨ba,_⟩
        · exact absurd ba (lt_asymm ab)
        · exact absurd ab (ba ▸ lt_irrefl b)
      · rcases second with ba | ⟨_,rest⟩
        · exact absurd ba (ab ▸ lt_irrefl b)
        · rw [ab,ih tail rest]

theorem scalar_append (s t : Str) : scalar (s ++ t) = (scalar s && scalar t) := by simp [scalar]

section Replace

/-- Replacing brings in what is written and nothing else. -/
theorem mem_of_mem_replaceFrom {old new : Str} {c : CodePoint} (s : Str) (skip : Nat)
    (member : c ∈ replaceFrom old new skip s) : c ∈ s ∨ c ∈ new := by
  induction s generalizing skip with
  | nil => cases skip <;> cases member
  | cons x rest ih =>
    cases skip with
    | succ skip => exact (ih skip member).imp_left (List.mem_cons_of_mem x)
    | zero =>
      rw [replaceFrom] at member
      split at member
      next =>
        rcases List.mem_append.mp member with fresh | later
        · exact Or.inr fresh
        · exact (ih _ later).imp_left (List.mem_cons_of_mem x)
      next =>
        rcases List.mem_cons.mp member with rfl | later
        · exact Or.inl List.mem_cons_self
        · exact (ih 0 later).imp_left (List.mem_cons_of_mem x)

theorem replaceFrom_skip (old new skipped rest : Str) :
    replaceFrom old new skipped.length (skipped ++ rest) = replaceFrom old new 0 rest := by
  induction skipped with
  | nil => rfl
  | cons c skipped ih => exact ih

theorem replace_nil (old new : Str) : replace [] old new = [] := rfl

/-- The scan passes over text that never shows the first code point of the pattern. -/
theorem replace_append_clean (head : CodePoint) (tail new clean rest : Str) (absent : head ∉ clean) :
    replace (clean ++ rest) (head::tail) new = clean ++ replace rest (head::tail) new := by
  induction clean with
  | nil => rfl
  | cons c clean ih =>
    have other : head ≠ c := by
      intro same
      exact absent (by simp [same])
    have step : ((head::tail).isPrefixOf (c::(clean ++ rest))) = false := by
      simp [List.isPrefixOf,other]
    rw [replace,List.cons_append,replaceFrom,if_neg (by simp [step])]
    exact congrArg (c :: ·) (ih (fun member => absent (by simp [member])))

theorem replace_match (head : CodePoint) (tail new rest : Str) :
    replace ((head::tail) ++ rest) (head::tail) new = new ++ replace rest (head::tail) new := by
  have found : (head::tail).isPrefixOf (head::(tail ++ rest)) = true := by
    rw [List.isPrefixOf_iff_prefix]
    exact ⟨rest,rfl⟩
  rw [replace,List.cons_append,replaceFrom,if_pos found]
  exact congrArg (new ++ ·) (replaceFrom_skip (head::tail) new tail rest)

theorem replace_mismatch (old new : Str) (c : CodePoint) (rest : Str)
    (other : ¬ old <+: c::rest) : replace (c::rest) old new = c :: replace rest old new := by
  rw [replace,replaceFrom,if_neg (by rwa [List.isPrefixOf_iff_prefix])]
  rfl

theorem replace_single (c : CodePoint) (new s : Str) :
    replace s [c] new = s.flatMap (fun x => if x = c then new else [x]) := by
  induction s with
  | nil => rfl
  | cons x rest ih =>
    rw [List.flatMap_cons,← ih]
    split
    next same =>
      rw [same]
      exact replace_match c [] new rest
    next other =>
      exact replace_append_clean c [] new [x] rest (by simpa using Ne.symm other)

theorem replace_absent (head : CodePoint) (tail new s : Str) (absent : head ∉ s) :
    replace s (head::tail) new = s := by
  simpa [replace_nil] using replace_append_clean head tail new s [] absent

end Replace

end Str

end Python
