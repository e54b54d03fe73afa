import Mathlib.Data.List.Perm.Subperm
import Mathlib.Logic.Relation
import ToolLayer.Kit.Result
import ToolLayer.Python.Exceptions
import ToolLayer.Python.Value

/-! The objects of a call. A body is put together from the arguments' own objects, so a write
into the body may land in an argument, and an object may come to lie inside itself. -/
namespace ToolLayer.Policy
open Python Kit Kit.Result

/-- An object of the arguments, by the keys that lead to it, or one made for the body. -/
inductive Place where
  | argument (keys : List Str)
  | made (n : Nat)
  deriving DecidableEq

/-- What a member holds: an object, which others may hold too, or a value that never changes. -/
inductive Held where
  | object (place : Place)
  | plain (value : Value)

namespace Held

/-- A value of the arguments. -/
def of (keys : List Str) : Value → Held
  | .dict _ => .object (.argument keys)
  | v => .plain v

/-- What can be said of it without looking into objects. -/
def shown : Held → Value
  | .object _ => .dict []
  | .plain v => v

end Held

/-- `place[key] = held`. -/
structure Write where
  place : Place
  key : Str
  held : Held

/-- The arguments as they were given and the writes since, the latest first. -/
structure Objects where
  given : Dict
  writes : List Write
  made : Nat

namespace Objects

/-- The body starts as an empty object. -/
def start (arguments : Dict) : Objects := ⟨arguments,[],1⟩

def body : Place := .made 0

/-- The object some keys lead to, as it was given. -/
def givenAt : List Str → Dict → Option Dict
  | [],d => some d
  | key::rest,d =>
    match Assoc.get key d with
    | some (.dict below) => givenAt rest below
    | _ => none

/-- The members an object starts with. -/
def original (given : Dict) : Place → List (Str × Held)
  | .argument keys => ((givenAt keys given).getD []).map (fun m => (m.1,Held.of (keys ++ [m.1]) m.2))
  | .made _ => []

def after (members : List (Str × Held)) (place : Place) : List Write → List (Str × Held)
  | [] => members
  | w::earlier =>
    if w.place = place then Assoc.set w.key w.held (after members place earlier) else after members place earlier

def membersOf (objects : Objects) (place : Place) : List (Str × Held) :=
  after (original objects.given place) place objects.writes

def lookup (objects : Objects) (place : Place) (key : Str) : Option Held := Assoc.get key (objects.membersOf place)

def write (objects : Objects) (w : Write) : Objects := { objects with writes := w::objects.writes }

def alloc (objects : Objects) : Objects := { objects with made := objects.made + 1 }

/-- The descent of `_write_pointer`. -/
def writeTokens (objects : Objects) (place : Place) : List Str → Str → Held → Objects
  | [],last,held => objects.write ⟨place,last,held⟩
  | token::rest,last,held =>
    match objects.lookup place token with
    | some (.object nested) => writeTokens objects nested rest last held
    | _ => writeTokens (objects.alloc.write ⟨place,token,.object (.made objects.made)⟩) (.made objects.made) rest last held

mutual
/-- The places of the objects in a value. -/
def placesIn (keys : List Str) : Value → List Place
  | .dict members => .argument keys :: placesInMembers keys members
  | _ => []
def placesInMembers (keys : List Str) : Dict → List Place
  | [] => []
  | m::rest => placesIn (keys ++ [m.1]) m.2 ++ placesInMembers keys rest
end

def places (objects : Objects) : List Place :=
  placesIn [] (.dict objects.given) ++ (List.range objects.made).map .made

variable {E : Type}

/-- What an encoder makes of an object; it refuses one that lies inside itself. No chain of
objects that are all different is longer than `fuel`. -/
def tree (objects : Objects) : Nat → List Place → Place → Except (Exc E) Dict
  | 0,_,_ => .error .valueError
  | fuel + 1,outer,place =>
    if place ∈ outer then .error .valueError
    else each (fun m : Str × Held =>
      match m.2 with
      | .plain v => .ok (m.1,v)
      | .object inner => (tree objects fuel (place::outer) inner).map (fun d => (m.1,.dict d))) (objects.membersOf place)

def encodable (objects : Objects) (place : Place) : Except (Exc E) Dict :=
  objects.tree (objects.places.length + 1) [] place

/-- One object is held by a member of another. -/
def Holds (objects : Objects) (outer inner : Place) : Prop := ∃ key, (key,.object inner) ∈ objects.membersOf outer

/-- Going down from the object comes to an end. -/
def Grounded (objects : Objects) (place : Place) : Prop := Acc (fun inner outer => objects.Holds outer inner) place

/-- Every object that is written to or put somewhere is one of the call's. -/
def Closed (objects : Objects) : Prop :=
  ∀ w ∈ objects.writes, ∀ p, w.held = .object p → p ∈ objects.places

section Writes

variable {objects : Objects}

theorem membersOf_write (w : Write) (place : Place) : (objects.write w).membersOf place =
    if w.place = place then Assoc.set w.key w.held (objects.membersOf place) else objects.membersOf place := rfl

theorem lookup_write (w : Write) (place : Place) (key : Str) : (objects.write w).lookup place key =
    if w.place = place ∧ key = w.key then some w.held else objects.lookup place key := by
  rw [lookup,membersOf_write]
  by_cases here : w.place = place
  · rw [if_pos here]
    by_cases same : key = w.key
    · rw [if_pos ⟨here,same⟩,same,Assoc.get_set_same]
    · rw [if_neg (fun both => same both.2),Assoc.get_set_other _ _ (Ne.symm same)]
      rfl
  · rw [if_neg here,if_neg (fun both => here both.1)]
    rfl

/-- The members of the arguments as they were given. -/
theorem lookup_start (arguments : Dict) (keys : List Str) (key : Str) : (start arguments).lookup (.argument keys) key =
    ((givenAt keys arguments).bind (Assoc.get key)).map (Held.of (keys ++ [key])) := by
  cases found : givenAt keys arguments with
  | none =>
    simp only [lookup,membersOf,start,after,original,found]
    rfl
  | some d =>
    simp only [lookup,membersOf,start,after,original,found,Option.getD_some,Option.bind_some]
    exact Assoc.get_mapKey key (fun k => Held.of (keys ++ [k])) d

@[simp] theorem membersOf_alloc (place : Place) : objects.alloc.membersOf place = objects.membersOf place := rfl

@[simp] theorem lookup_alloc (place : Place) (key : Str) : objects.alloc.lookup place key = objects.lookup place key := rfl

@[simp] theorem places_write (w : Write) : (objects.write w).places = objects.places := rfl

theorem places_alloc : objects.alloc.places = objects.places ++ [.made objects.made] := by
  simp [places,alloc,List.range_succ]

end Writes

section Grounds

variable {objects : Objects}

theorem placesIn_member {keys : List Str} {d : Dict} {m : Str × Value} (member : m ∈ d) :
    placesIn (keys ++ [m.1]) m.2 ⊆ placesIn keys (.dict d) := by
  rw [placesIn]
  refine List.Subset.trans ?_ (List.subset_cons_self _ _)
  induction d with
  | nil => cases member
  | cons first rest ih =>
    rw [placesInMembers]
    rcases List.mem_cons.mp member with rfl | later
    · exact List.subset_append_left _ _
    · exact List.Subset.trans (ih later) (List.subset_append_right _ _)

theorem placesIn_givenAt {rest : List Str} {keys : List Str} {d below : Dict} (found : givenAt rest d = some below) :
    placesIn (keys ++ rest) (.dict below) ⊆ placesIn keys (.dict d) := by
  induction rest generalizing keys d with
  | nil =>
    cases found
    rw [List.append_nil]
    exact List.Subset.refl _
  | cons key rest ih =>
    rw [givenAt] at found
    split at found
    next next_ there =>
      have step := @placesIn_member keys _ _ (Assoc.mem_of_get there)
      have later := @ih (keys ++ [key]) next_ found
      rw [List.append_assoc,List.singleton_append] at later
      exact List.Subset.trans later step
    next => cases found

theorem mem_after {members : List (Str × Held)} {place : Place} {writes : List Write} {m : Str × Held}
    (member : m ∈ after members place writes) : m ∈ members ∨ ∃ w ∈ writes, m = (w.key,w.held) := by
  induction writes with
  | nil => exact Or.inl member
  | cons w earlier ih =>
    rw [after] at member
    split at member
    next =>
      rcases Assoc.mem_set member with rfl | old
      · exact Or.inr ⟨w,by simp,rfl⟩
      · exact (ih old).imp_right (fun ⟨x,inside,same⟩ => ⟨x,List.mem_cons_of_mem _ inside,same⟩)
    next => exact (ih member).imp_right (fun ⟨x,inside,same⟩ => ⟨x,List.mem_cons_of_mem _ inside,same⟩)

/-- What an object holds is among the call's objects. -/
theorem Closed.holds (closed : objects.Closed) {outer inner : Place} (holds : objects.Holds outer inner) :
    inner ∈ objects.places := by
  obtain ⟨key,member⟩ := holds
  rcases mem_after member with first | ⟨w,written,same⟩
  · cases outer with
    | made n => cases first
    | argument keys =>
      obtain ⟨m,inside,same⟩ := List.mem_map.mp first
      cases found : givenAt keys objects.given with
      | none =>
        rw [found] at inside
        cases inside
      | some d =>
        rw [found,Option.getD_some] at inside
        have held : Held.of (keys ++ [m.1]) m.2 = .object inner := congrArg Prod.snd same
        cases shape : m.2 with
        | dict below =>
          rw [shape] at held
          cases held
          have top : Place.argument (keys ++ [m.1]) ∈ placesIn (keys ++ [m.1]) m.2 := by
            rw [shape,placesIn]
            exact List.mem_cons_self
          have all := @placesIn_givenAt _ [] _ _ found
          exact List.mem_append_left _ (all (placesIn_member inside top))
        | _ =>
          rw [shape] at held
          cases held
  · exact closed w written inner (congrArg Prod.snd same).symm

theorem grounded_of_tree {fuel : Nat} {outer : List Place} {place : Place} {d : Dict}
    (done : objects.tree (E := E) fuel outer place = .ok d) : objects.Grounded place := by
  induction fuel generalizing outer place d with
  | zero => cases done
  | succ fuel ih =>
    rw [tree] at done
    split at done
    next => cases done
    next =>
      refine Acc.intro _ (fun inner ⟨key,member⟩ => ?_)
      obtain ⟨out,_,made⟩ := exists_right (each_eq_ok.mp done) member
      obtain ⟨below,within,_⟩ := map_eq_ok.mp made
      exact ih within

theorem Grounded.not_inside {place : Place} (grounded : objects.Grounded place) :
    ¬ Relation.TransGen objects.Holds place place := by
  intro round
  have descends := (Relation.transGen_swap (r := objects.Holds)).mpr round
  have ends := Acc.transGen grounded
  clear round grounded
  induction ends with
  | intro place _ ih => exact ih place descends descends

/-- An object with an end is encoded, however often parts of it are shared. -/
theorem Closed.tree_of_grounded (closed : objects.Closed) {place : Place} (grounded : objects.Grounded place)
    {fuel : Nat} {outer : List Place} (distinct : outer.Nodup) (known : outer ⊆ objects.places)
    (above : ∀ p ∈ outer, Relation.TransGen objects.Holds p place) (here : place ∈ objects.places)
    (enough : objects.places.length < fuel + outer.length) :
    ∃ d, objects.tree (E := E) fuel outer place = .ok d := by
  induction grounded generalizing fuel outer with
  | intro place below ih =>
    have grounded : objects.Grounded place := Acc.intro _ below
    have fresh : place ∉ outer := fun inside => grounded.not_inside (above place inside)
    have bound := (List.subperm_of_subset distinct known).length_le
    obtain ⟨fuel,rfl⟩ : ∃ n, fuel = n + 1 := ⟨fuel - 1,by omega⟩
    rw [tree,if_neg fresh]
    refine each_of_forall (fun m member => ?_)
    obtain ⟨key,held⟩ := m
    cases held with
    | plain v => exact ⟨_,rfl⟩
    | object inner =>
      have holds : objects.Holds place inner := ⟨key,member⟩
      have deeper : ∀ p ∈ place::outer, Relation.TransGen objects.Holds p inner := by
        rw [List.forall_mem_cons]
        exact ⟨.single holds,fun p inside => (above p inside).tail holds⟩
      have enough : objects.places.length < fuel + (place::outer).length := by
        rw [List.length_cons]
        omega
      obtain ⟨d,done⟩ := ih inner holds (List.nodup_cons.mpr ⟨fresh,distinct⟩) (List.cons_subset.mpr ⟨here,known⟩) deeper
        (closed.holds holds) enough
      exact ⟨_,map_eq_ok.mpr ⟨d,done,rfl⟩⟩

/-- The encoder refuses exactly the objects that lie inside themselves somewhere. -/
theorem Closed.encodable_iff (closed : objects.Closed) {place : Place} (here : place ∈ objects.places) :
    (∃ d, objects.encodable (E := E) place = .ok d) ↔ objects.Grounded place := by
  constructor
  · rintro ⟨d,done⟩
    exact grounded_of_tree done
  · intro grounded
    exact closed.tree_of_grounded grounded List.nodup_nil (List.nil_subset _) (by simp) here (by simp)

theorem Closed.lookup (closed : objects.Closed) {place inner : Place} {key : Str}
    (found : objects.lookup place key = some (.object inner)) : inner ∈ objects.places :=
  closed.holds ⟨key,Assoc.mem_of_get found⟩

/-- What the writes of one binding keep. -/
structure Grows (objects next : Objects) : Prop where
  given : next.given = objects.given
  places : objects.places ⊆ next.places
  closed : objects.Closed → next.Closed

theorem Grows.refl (objects : Objects) : Grows objects objects := ⟨rfl,List.Subset.refl _,id⟩

theorem Grows.trans {a b c : Objects} (first : Grows a b) (second : Grows b c) : Grows a c :=
  ⟨second.given.trans first.given,List.Subset.trans first.places second.places,fun closed => second.closed (first.closed closed)⟩

theorem grows_write {w : Write} (known : ∀ p, w.held = .object p → p ∈ objects.places) : Grows objects (objects.write w) := by
  refine ⟨rfl,List.Subset.refl _,fun closed => ?_⟩
  intro x member p held
  rcases List.mem_cons.mp member with rfl | later
  · exact known p held
  · exact closed x later p held

theorem grows_alloc (objects : Objects) : Grows objects objects.alloc := by
  have more : objects.places ⊆ objects.alloc.places := by
    rw [places_alloc]
    exact List.subset_append_left _ _
  exact ⟨rfl,more,fun closed w member p held => more (closed w member p held)⟩

theorem grows_writeTokens {place : Place} {front : List Str} {last : Str} {held : Held}
    (known : ∀ p, held = .object p → p ∈ objects.places) : Grows objects (objects.writeTokens place front last held) := by
  induction front generalizing objects place with
  | nil => exact grows_write known
  | cons token rest ih =>
    rw [writeTokens]
    split
    next => exact ih known
    next =>
      have made : Grows objects (objects.alloc.write ⟨place,token,.object (.made objects.made)⟩) := by
        refine (grows_alloc objects).trans (grows_write ?_)
        rintro p ⟨⟩
        simp [places_alloc]
      exact made.trans (ih (fun p same => made.places (known p same)))

end Grounds

end Objects

end ToolLayer.Policy
