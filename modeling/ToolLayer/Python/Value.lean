import Mathlib.Data.List.Sort
import ToolLayer.Kit.Assoc
import ToolLayer.Python.Text

/-! The values a JSON or YAML parser hands to Python code: numbers, text, lists
and insertion-ordered dictionaries, plus the scalars only YAML can produce. -/
namespace Python
open Kit

/-- A number `m * 10 ^ e`, or one of the values JSON text cannot write. -/
inductive Number where
  | finite (mantissa : Int) (exponent : Int)
  | infinite (negative : Bool)
  | nan
  deriving DecidableEq

namespace Number

/-- The mantissas of two numbers brought to one exponent. -/
def align (a ea b eb : Int) : Int × Int :=
  let low := min ea eb
  (a * 10 ^ (ea - low).toNat,b * 10 ^ (eb - low).toNat)

def eq : Number → Number → Bool
  | finite a ea,finite b eb => let (x,y) := align a ea b eb; x == y
  | infinite a,infinite b => a == b
  | _,_ => false

def le : Number → Number → Bool
  | finite a ea,finite b eb => let (x,y) := align a ea b eb; decide (x ≤ y)
  | infinite true,infinite _ => true
  | infinite false,infinite b => !b
  | infinite a,finite _ _ => a
  | finite _ _,infinite b => !b
  | _,_ => false

/-- The integer a number stands for, when it is one. -/
def integer? : Number → Option Int
  | finite m e =>
    if 0 ≤ e then some (m * 10 ^ e.toNat)
    else if m % 10 ^ (-e).toNat = 0 then some (m / 10 ^ (-e).toNat) else none
  | _ => none

end Number

namespace Str

def digitsValue (s : Str) : Nat := s.foldl (fun n c => 10 * n + (c.val - 0x30)) 0

def allDigits (s : Str) : Bool := !s.isEmpty && s.all CodePoint.isDigit

def stripSign (s : Str) : Bool × Str :=
  match s with
  | c::rest => if c = '-' then (true,rest) else (false,s)
  | [] => (false,[])

/-- Whether an exponent is negative, and its digits. -/
def signedPower : Str → Bool × Str
  | c::rest => (decide (c = '-'),rest)
  | [] => (false,[])

/-- Reads the text `float.__repr__` writes: a point, an exponent or both. -/
def floatNumber? (s : Str) : Option Number :=
  if s = "nan" then some .nan
  else if s = "inf" then some (.infinite false)
  else if s = "-inf" then some (.infinite true)
  else
    let (negative,body) := stripSign s
    let (mantissa,hasExponent,exponent) := partition 'e' body
    let (whole,hasPoint,fraction) := partition '.' mantissa
    let (down,power) := signedPower exponent
    if allDigits whole && (!hasPoint || allDigits fraction) &&
        (!hasExponent || (allDigits power && (exponent.head? == some '+' || down))) &&
        (hasPoint || hasExponent) then
      let digits : Int := digitsValue (whole ++ fraction)
      let shift : Int := if down then -digitsValue power else digitsValue power
      some (.finite (if negative then -digits else digits) (shift - fraction.length))
    else none

end Str

/-- A float is identified with its shortest round-trip text, `float.__repr__`. -/
structure PyFloat where
  repr : Str
  readable : (Str.floatNumber? repr).isSome = true

def PyFloat.number (x : PyFloat) : Number := (Str.floatNumber? x.repr).get x.readable

theorem PyFloat.repr_injective {x y : PyFloat} (equal : x.repr = y.repr) : x = y := by
  cases x
  cases y
  congr

instance : DecidableEq PyFloat := fun x y =>
  decidable_of_iff (x.repr = y.repr) ⟨PyFloat.repr_injective,congrArg PyFloat.repr⟩

/-- `other` stands for what only the YAML loader yields (dates, bytes, sets,
pairs): its Python type, its `repr`, and what its JSON-mode dump yields, if anything. -/
inductive Value where
  | null
  | bool (b : Bool)
  | int (n : Int)
  | float (x : PyFloat)
  | str (s : Str)
  | list (items : List Value)
  | dict (members : List (Str × Value))
  | other (kind : String) (repr : Str) (json : List Value)

abbrev Dict := List (Str × Value)

instance : Inhabited Value := ⟨.null⟩

namespace Dict

/-- `d.get(key)`: an absent key reads as `None`. -/
def get (d : Dict) (key : Str) : Value := (Assoc.get key d).getD .null

/-- `key in d`. -/
def has (d : Dict) (key : Str) : Bool := (Assoc.get key d).isSome

/-- `d[key] = value`. -/
def set (d : Dict) (key : Str) (value : Value) : Dict := Assoc.set key value d

/-- The items whose key is not in `excluded`. -/
def without (d : Dict) (excluded : List Str) : Dict := d.filter (fun member => !excluded.contains member.1)

theorem get_set (d : Dict) (key other : Str) (value : Value) :
    get (set d key value) other = if other = key then value else get d other := by
  unfold get set
  split
  next same =>
    rw [same,Assoc.get_set_same]
    rfl
  next different => rw [Assoc.get_set_other value d (Ne.symm different)]

end Dict

namespace Value

theorem induct {motive : Value → Prop} (null : motive .null) (bool : ∀ b, motive (.bool b))
    (int : ∀ n, motive (.int n)) (float : ∀ x, motive (.float x)) (str : ∀ s, motive (.str s))
    (list : ∀ items, (∀ v ∈ items, motive v) → motive (.list items))
    (dict : ∀ members : Dict, (∀ m ∈ members, motive m.2) → motive (.dict members))
    (other : ∀ kind repr json, (∀ v ∈ json, motive v) → motive (.other kind repr json)) (v : Value) : motive v :=
  @Value.rec motive (fun items => ∀ v ∈ items, motive v) (fun members => ∀ m ∈ members, motive m.2)
    (fun m => motive m.2)
    null bool int float str list dict other
    (by simp) (fun _ _ head tail => by simpa using ⟨head,tail⟩)
    (by simp) (fun _ _ head tail => List.forall_mem_cons.mpr ⟨head,tail⟩)
    (fun _ _ second => second) v

def truthy : Value → Bool
  | .null => false
  | .bool b => b
  | .int n => n ≠ 0
  | .float x => !x.number.eq (.finite 0 0)
  | .str s => !s.isEmpty
  | .list items => !items.isEmpty
  | .dict members => !members.isEmpty
  | .other _ _ _ => true

/-- `isinstance(v, (int, float))` and its value; `bool` is an `int`. -/
def number? : Value → Option Number
  | .bool b => some (.finite (if b then 1 else 0) 0)
  | .int n => some (.finite n 0)
  | .float x => some x.number
  | _ => none

def text? : Value → Option Str
  | .str s => some s
  | _ => none

mutual
/-- Python `==`. -/
def pyEq : Value → Value → Bool
  | .null,.null => true
  | .str s,.str t => s == t
  | .list xs,.list ys => pyEqList xs ys
  | .dict ms,.dict ns => decide (ms.length = ns.length) && pyEqMembers ms ns
  | .other k s _,.other l t _ => k == l && s == t
  | .bool a,.bool b => a == b
  | .bool a,.int n => (if a then 1 else 0) == n
  | .bool a,.float y => Number.eq (.finite (if a then 1 else 0) 0) y.number
  | .int m,.bool b => m == (if b then 1 else 0)
  | .int m,.int n => m == n
  | .int m,.float y => Number.eq (.finite m 0) y.number
  | .float x,.bool b => x.number.eq (.finite (if b then 1 else 0) 0)
  | .float x,.int n => x.number.eq (.finite n 0)
  | .float x,.float y => x.number.eq y.number
  | _,_ => false
def pyEqList : List Value → List Value → Bool
  | [],[] => true
  | x::xs,y::ys => pyEq x y && pyEqList xs ys
  | _,_ => false
def pyEqMembers : Dict → Dict → Bool
  | [],_ => true
  | (key,value)::rest,against =>
    (match Assoc.get key against with
      | some found => pyEq value found
      | none => false) && pyEqMembers rest against
end

theorem pyEq_str {v : Value} {s : Str} : pyEq v (.str s) = true ↔ v = .str s := by
  cases v <;> simp [pyEq]

/-- `v in items`. -/
def isIn (v : Value) (items : List Value) : Bool := items.any (fun item => pyEq v item)

mutual
/-- Every value at any depth is one JSON text can write (NaN and infinities apart). -/
def isJson : Value → Bool
  | .other _ _ _ => false
  | .list items => isJsonList items
  | .dict members => isJsonMembers members
  | _ => true
def isJsonList : List Value → Bool
  | [] => true
  | item::rest => isJson item && isJsonList rest
def isJsonMembers : Dict → Bool
  | [] => true
  | (_,value)::rest => isJson value && isJsonMembers rest
end

theorem isJson_list {items : List Value} : isJson (.list items) = true ↔ ∀ v ∈ items, isJson v = true := by
  rw [isJson]
  induction items with
  | nil => simp [isJsonList]
  | cons v rest ih => rw [isJsonList,Bool.and_eq_true,List.forall_mem_cons,ih]

theorem isJson_dict {members : Dict} : isJson (.dict members) = true ↔ ∀ m ∈ members, isJson m.2 = true := by
  rw [isJson]
  induction members with
  | nil => simp [isJsonMembers]
  | cons m rest ih => rw [isJsonMembers,Bool.and_eq_true,List.forall_mem_cons,ih]

mutual
/-- Every value at any depth that is no container passes `leaf`, every key passes `text`. -/
def every (leaf : Value → Bool) (text : Str → Bool) : Value → Bool
  | .list items => everyList leaf text items
  | .dict members => everyMembers leaf text members
  | .null => leaf .null
  | .bool b => leaf (.bool b)
  | .int n => leaf (.int n)
  | .float x => leaf (.float x)
  | .str s => leaf (.str s)
  | .other kind repr json => leaf (.other kind repr json)
def everyList (leaf : Value → Bool) (text : Str → Bool) : List Value → Bool
  | [] => true
  | item::rest => every leaf text item && everyList leaf text rest
def everyMembers (leaf : Value → Bool) (text : Str → Bool) : Dict → Bool
  | [] => true
  | (key,value)::rest => text key && every leaf text value && everyMembers leaf text rest
end

section Every

variable {leaf : Value → Bool} {text : Str → Bool}

theorem every_list {items : List Value} :
    every leaf text (.list items) = true ↔ ∀ v ∈ items, every leaf text v = true := by
  rw [every]
  induction items with
  | nil => simp [everyList]
  | cons v rest ih => rw [everyList,Bool.and_eq_true,List.forall_mem_cons,ih]

theorem every_dict {members : Dict} :
    every leaf text (.dict members) = true ↔ ∀ m ∈ members, text m.1 = true ∧ every leaf text m.2 = true := by
  rw [every]
  induction members with
  | nil => simp [everyMembers]
  | cons m rest ih => rw [everyMembers,Bool.and_eq_true,Bool.and_eq_true,List.forall_mem_cons,ih]

theorem every_set {d : Dict} {key : Str} {value : Value} (before : every leaf text (.dict d) = true)
    (plain : text key = true) (new : every leaf text value = true) : every leaf text (.dict (Dict.set d key value)) = true := by
  rw [every_dict] at before ⊢
  intro m member
  rcases Assoc.mem_set member with rfl | old
  · exact ⟨plain,new⟩
  · exact before m old

theorem every_get {d : Dict} (key : Str) (null : leaf .null = true) (all : every leaf text (.dict d) = true) :
    every leaf text (Dict.get d key) = true := by
  rw [every_dict] at all
  unfold Dict.get
  cases found : Assoc.get key d with
  | none => exact null
  | some value => exact (all _ (Assoc.mem_of_get found)).2

theorem every_of_every {leaf' : Value → Bool} {text' : Str → Bool} (leaves : ∀ v, leaf v = true → leaf' v = true)
    (texts : ∀ s, text s = true → text' s = true) {v : Value} (all : every leaf text v = true) :
    every leaf' text' v = true := by
  induction v using Value.induct with
  | list items ih =>
    rw [every_list] at all ⊢
    exact fun v member => ih v member (all v member)
  | dict members ih =>
    rw [every_dict] at all ⊢
    exact fun m member => ⟨texts _ (all m member).1,ih m member (all m member).2⟩
  | _ => exact leaves _ all

theorem every_and {leaf' : Value → Bool} {text' : Str → Bool} {v : Value} (first : every leaf text v = true)
    (second : every leaf' text' v = true) :
    every (fun v => leaf v && leaf' v) (fun s => text s && text' s) v = true := by
  induction v using Value.induct with
  | list items ih =>
    rw [every_list] at first second ⊢
    exact fun v member => ih v member (first v member) (second v member)
  | dict members ih =>
    rw [every_dict] at first second ⊢
    intro m member
    obtain ⟨key,value⟩ := first m member
    obtain ⟨key',value'⟩ := second m member
    exact ⟨Bool.and_eq_true_iff.mpr ⟨key,key'⟩,ih m member value value'⟩
  | _ => exact Bool.and_eq_true_iff.mpr ⟨first,second⟩

end Every

/-- No lone surrogate anywhere, in keys or in texts. -/
def scalar (v : Value) : Bool := v.every (fun | .str s => s.scalar | _ => true) Str.scalar

mutual
/-- How deep a value nests; a bound on every recursion into it. -/
def depth : Value → Nat
  | .list items => depthList items + 1
  | .dict members => depthMembers members + 1
  | _ => 0
def depthList : List Value → Nat
  | [] => 0
  | v::rest => max (depth v) (depthList rest)
def depthMembers : Dict → Nat
  | [] => 0
  | m::rest => max (depth m.2) (depthMembers rest)
end

theorem depth_le_members {members : Dict} {m : Str × Value} (member : m ∈ members) : depth m.2 ≤ depthMembers members := by
  induction members with
  | nil => cases member
  | cons first rest ih =>
    rw [depthMembers]
    rcases List.mem_cons.mp member with rfl | later
    · exact le_max_left _ _
    · exact (ih later).trans (le_max_right _ _)

/-- A member that is looked up nests less deep than its dictionary. -/
theorem depth_get {members : Dict} {key : Str} {v : Value} (found : Assoc.get key members = some v) :
    depth v < depth (.dict members) := by
  rw [depth]
  exact Nat.lt_succ_of_le (depth_le_members (Assoc.mem_of_get found))

/-- The order `sort_keys` puts members in. -/
def keyLe (a b : Str × Value) : Prop := Str.le a.1 b.1 = true

instance : DecidableRel keyLe := fun a b => inferInstanceAs (Decidable (Str.le a.1 b.1 = true))

/-- `sorted` of texts. -/
theorem pairwise_insertionSort (texts : List Str) :
    (texts.insertionSort (fun a b => Str.le a b = true)).Pairwise (fun a b => Str.le a b = true) := by
  have total : Std.Total (fun a b : Str => Str.le a b = true) := ⟨fun a b => Str.le_total a b⟩
  have trans : IsTrans Str (fun a b : Str => Str.le a b = true) := ⟨fun _ _ _ => Str.le_trans⟩
  exact List.pairwise_insertionSort _ _

instance : Std.Total keyLe := ⟨fun a b => Str.le_total a.1 b.1⟩

instance : IsTrans (Str × Value) keyLe := ⟨fun _ _ _ first second => Str.le_trans first second⟩

mutual
/-- Every object's members put in key order, at any depth. -/
def sorted : Value → Value
  | .list items => .list (sortedList items)
  | .dict members => .dict ((sortedMembers members).insertionSort keyLe)
  | .null => .null
  | .bool b => .bool b
  | .int n => .int n
  | .float x => .float x
  | .str s => .str s
  | .other kind repr json => .other kind repr (sortedList json)
def sortedList : List Value → List Value
  | [] => []
  | item::rest => sorted item :: sortedList rest
def sortedMembers : Dict → Dict
  | [] => []
  | (key,value)::rest => (key,sorted value) :: sortedMembers rest
end

/-- The same JSON value, object key order aside. -/
def Same (a b : Value) : Prop := a.sorted = b.sorted

@[refl] theorem Same.refl (a : Value) : Same a a := rfl

theorem Same.symm {a b : Value} (same : Same a b) : Same b a := Eq.symm same

theorem Same.trans {a b c : Value} (first : Same a b) (second : Same b c) : Same a c :=
  Eq.trans first second

theorem sortedList_eq_map (items : List Value) : sortedList items = items.map sorted := by
  induction items with
  | nil => rfl
  | cons item rest ih => simp [sortedList,ih]

theorem sortedMembers_eq_map (members : Dict) :
    sortedMembers members = members.map (fun m => (m.1,sorted m.2)) := by
  induction members with
  | nil => rfl
  | cons m rest ih => simp [sortedMembers,ih]

/-- Sorting moves members and changes none; foreign values stay foreign. -/
theorem every_sorted {leaf : Value → Bool} {text : Str → Bool}
    (foreign : ∀ kind repr json, leaf (sorted (.other kind repr json)) = leaf (.other kind repr json)) (v : Value) :
    every leaf text v.sorted = every leaf text v := by
  induction v using Value.induct with
  | list items ih =>
    rw [sorted,sortedList_eq_map,Bool.eq_iff_iff,every_list,every_list,List.forall_mem_map]
    exact forall₂_congr (fun v member => by rw [ih v member])
  | dict members ih =>
    rw [sorted,sortedMembers_eq_map,Bool.eq_iff_iff,every_dict,every_dict]
    simp only [(List.perm_insertionSort keyLe _).mem_iff,List.forall_mem_map]
    exact forall₂_congr (fun m member => by rw [ih m member])
  | other kind repr json ih => exact foreign kind repr json
  | _ => rfl

theorem keys_sortedMembers (members : Dict) : Assoc.keys (sortedMembers members) = Assoc.keys members := by
  simp [sortedMembers_eq_map,Assoc.keys]

/-- Reordering the members of an object with distinct keys changes no value. -/
theorem same_of_perm {ms ns : Dict} (distinct : (Assoc.keys ms).Nodup) (reordered : ms.Perm ns) :
    Same (.dict ms) (.dict ns) := by
  unfold Same
  simp only [sorted]
  congr 1
  have moved : (sortedMembers ms).Perm (sortedMembers ns) := by
    simpa only [sortedMembers_eq_map] using reordered.map _
  refine @List.Perm.eq_of_pairwise _ keyLe _ _ ?_ ?_ ?_ ?_
  · intro a b ha hb ab ba
    have key : a.1 = b.1 := Str.le_antisymm ab ba
    have nodup : (Assoc.keys (sortedMembers ms)).Nodup := by rwa [keys_sortedMembers]
    have inLeft : b ∈ sortedMembers ms := moved.mem_iff.mpr ((List.perm_insertionSort _ _).mem_iff.mp hb)
    exact List.inj_on_of_nodup_map nodup ((List.perm_insertionSort _ _).mem_iff.mp ha) inLeft key
  · exact List.pairwise_insertionSort keyLe _
  · exact List.pairwise_insertionSort keyLe _
  · exact (List.perm_insertionSort _ _).trans (moved.trans (List.perm_insertionSort _ _).symm)

end Value

end Python
