import ToolLayer.Policy.Arguments

/-! Reading and writing at pointers, in objects that others may share. A write sets one member of one
object that was there before it; what it builds below that member is new. -/
namespace ToolLayer.Policy
open Python Kit Kit.Result

/-- The tokens of a pointer as keys. -/
def keysOf (pointer : Str) : List Str := (pointerTokens pointer).map unescape

/-- `_read_pointer` into any object. -/
def readPointerAt (objects : Objects) (document : Place) (pointer : Str) : Option Held :=
  if pointer.isEmpty then some (.object document) else readTokens objects (pointerTokens pointer) (.object document)

/-- `_write_pointer` into any object. -/
def writePointerAt (objects : Objects) (document : Place) (pointer : Str) (held : Held) : Except PyExc Objects :=
  match (keysOf pointer).reverse with
  | [] => .error (argumentValidationError "a body binding must target a property" pointer)
  | last::front => .ok (objects.writeTokens document front.reverse last held)

theorem readPointer_eq (objects : Objects) (pointer : Str) :
    readPointer objects pointer = readPointerAt objects (.argument []) pointer := rfl

theorem writePointer_eq (objects : Objects) (pointer : Str) (held : Held) :
    writePointer objects pointer held = writePointerAt objects Objects.body pointer held := rfl

/-- Neither pointer leads through the other. -/
def Unrelated (p q : List Str) : Prop := ¬ p <+: q ∧ ¬ q <+: p

namespace Objects

/-- The walk of a read, by keys. -/
def descend (objects : Objects) : List Str → Held → Option Held
  | [],current => some current
  | key::rest,.object place =>
    match objects.lookup place key with
    | some next => descend objects rest next
    | none => none
  | _::_,.plain _ => none

/-- The member a write sets in an object that was there before, and the keys that lead to it. -/
structure Target where
  kept : List Str
  owner : Place
  key : Str

def target (objects : Objects) (place : Place) : List Str → Str → Target
  | [],last => ⟨[],place,last⟩
  | token::rest,last =>
    match objects.lookup place token with
    | some (.object nested) => let below := target objects nested rest last; ⟨token::below.kept,below.owner,below.key⟩
    | _ => ⟨[],place,token⟩

/-- Every object in the document is reached one way only. -/
def IsTree (objects : Objects) (document : Place) : Prop :=
  ∀ one two place, objects.descend one (.object document) = some (.object place) →
    objects.descend two (.object document) = some (.object place) → one = two

/-- Whatever is held exists, and what is yet to be made is empty. -/
structure Sound (objects : Objects) : Prop where
  closed : objects.Closed
  unused : ∀ n, objects.made ≤ n → objects.membersOf (.made n) = []

section Walks

variable {objects : Objects}

mutual
theorem made_not_mem_placesIn (n : Nat) (keys : List Str) : (v : Value) → Place.made n ∉ placesIn keys v
  | .dict members => by
    rw [placesIn,List.mem_cons,not_or]
    exact ⟨by simp,made_not_mem_placesInMembers n keys members⟩
  | .null | .bool _ | .int _ | .float _ | .str _ | .list _ | .other _ _ _ => by simp [placesIn]
theorem made_not_mem_placesInMembers (n : Nat) (keys : List Str) : (d : Dict) → Place.made n ∉ placesInMembers keys d
  | [] => List.not_mem_nil
  | m::rest => by
    rw [placesInMembers,List.mem_append,not_or]
    exact ⟨made_not_mem_placesIn n (keys ++ [m.1]) m.2,made_not_mem_placesInMembers n keys rest⟩
end

/-- An object that exists is none of those yet to be made. -/
theorem not_made_of_mem_places {place : Place} (known : place ∈ objects.places) (n : Nat) (later : objects.made ≤ n) :
    place ≠ .made n := by
  rintro rfl
  rcases List.mem_append.mp known with given | made
  · exact made_not_mem_placesIn n [] _ given
  · obtain ⟨m,below,same⟩ := List.mem_map.mp made
    cases same
    exact absurd (List.mem_range.mp below) (Nat.not_lt.mpr later)

end Walks

section Writing

variable {objects : Objects}

theorem unrelated_nil {keys : List Str} : ¬ Unrelated keys [] := fun apart => apart.2 (List.nil_prefix)

theorem unrelated_cons {key : Str} {p q : List Str} : Unrelated (key::p) (key::q) ↔ Unrelated p q := by
  simp [Unrelated,List.cons_prefix_cons]

/-- What a write makes of an empty object: one chain of new objects, with the value at its end. -/
theorem writeTokens_empty {place : Place} (empty : objects.membersOf place = [])
    (unused : ∀ n, objects.made ≤ n → objects.membersOf (.made n) = []) (known : ∀ n, objects.made ≤ n → place ≠ .made n)
    (front : List Str) (last : Str) (held : Held) :
    (∀ q key, q ≠ place → (∀ n, objects.made ≤ n → q ≠ .made n) →
      (objects.writeTokens place front last held).lookup q key = objects.lookup q key) ∧
      (objects.writeTokens place front last held).descend (front ++ [last]) (.object place) = some held ∧
      ∀ back, Unrelated back (front ++ [last]) →
        (objects.writeTokens place front last held).descend back (.object place) = none := by
  have absent : ∀ key, objects.lookup place key = none := by
    intro key
    rw [lookup,empty]
    rfl
  induction front generalizing objects place with
  | nil =>
    rw [writeTokens]
    refine ⟨fun q key other _ => ?_,?_,fun back apart => ?_⟩
    · rw [lookup_write,if_neg (fun both => other both.1.symm)]
    · rw [List.nil_append,descend,lookup_write,if_pos ⟨rfl,rfl⟩]
      rfl
    · cases back with
      | nil => exact absurd List.nil_prefix apart.1
      | cons key rest =>
        have other : key ≠ last := by
          rintro rfl
          exact apart.2 (List.cons_prefix_cons.mpr ⟨rfl,List.nil_prefix⟩)
        rw [descend,lookup_write,if_neg (fun both => other both.2),absent]
  | cons token rest ih =>
    have step : objects.writeTokens place (token::rest) last held =
        (objects.alloc.write ⟨place,token,.object (.made objects.made)⟩).writeTokens (.made objects.made) rest last held := by
      rw [writeTokens,absent]
    have here : place ≠ .made objects.made := known _ le_rfl
    have others : ∀ q, q ≠ place → ∀ key,
        (objects.alloc.write ⟨place,token,.object (.made objects.made)⟩).lookup q key = objects.lookup q key := by
      intro q other key
      rw [lookup_write,if_neg (fun both => other both.1.symm),lookup_alloc]
    have members : ∀ q, q ≠ place →
        (objects.alloc.write ⟨place,token,.object (.made objects.made)⟩).membersOf q = objects.membersOf q := by
      intro q other
      rw [membersOf_write,if_neg (fun same => other same.symm),membersOf_alloc]
    have made : (objects.alloc.write ⟨place,token,.object (.made objects.made)⟩).made = objects.made + 1 := rfl
    obtain ⟨same,built,nothing⟩ := @ih (objects.alloc.write ⟨place,token,.object (.made objects.made)⟩) (.made objects.made)
      ((members _ here.symm).trans (unused _ le_rfl))
      (fun n later => (members _ (known n (by omega)).symm).trans (unused n (by omega)))
      (fun n later => by rw [made] at later; intro same; cases same; omega)
      (fun key => by rw [others _ here.symm,lookup,unused _ le_rfl]; rfl)
    rw [step]
    have kept := fun key => same place key here (fun n later => known n (by omega))
    refine ⟨fun q key other old => ?_,?_,fun back apart => ?_⟩
    · rw [same q key (old _ le_rfl) (fun n later => old n (by omega)),others q other]
    · rw [List.cons_append,descend,kept,lookup_write,if_pos ⟨rfl,rfl⟩]
      exact built
    · cases back with
      | nil => exact absurd List.nil_prefix apart.1
      | cons key more =>
        rw [descend,kept,lookup_write]
        by_cases same_ : key = token
        · subst same_
          rw [if_pos ⟨rfl,rfl⟩]
          exact nothing more (unrelated_cons.mp apart)
        · rw [if_neg (fun both => same_ both.2),lookup_alloc,absent]

/-- What a write does: it sets one member, and below that stands what was to be written and nothing
else that is new. -/
structure Wrote (objects after : Objects) (place : Place) (keys : List Str) (held : Held) (t : Target) : Prop where
  leads : objects.descend t.kept (.object place) = some (.object t.owner)
  same : ∀ q ∈ objects.places, ∀ key, ¬ (q = t.owner ∧ key = t.key) → after.lookup q key = objects.lookup q key
  below : ∃ more new, keys = t.kept ++ t.key :: more ∧ after.lookup t.owner t.key = some new ∧
    after.descend more new = some held ∧ (more ≠ [] → ∀ inner, objects.lookup t.owner t.key ≠ some (.object inner)) ∧
    ∀ back, Unrelated back more → after.descend back new = none

theorem target_of_object {place nested : Place} {token : Str} (found : objects.lookup place token = some (.object nested))
    (rest : List Str) (last : Str) : objects.target place (token::rest) last =
      ⟨token::(objects.target nested rest last).kept,(objects.target nested rest last).owner,(objects.target nested rest last).key⟩ := by
  rw [target,found]

theorem target_of_other {place : Place} {token : Str} (other : ∀ inner, objects.lookup place token ≠ some (.object inner))
    (rest : List Str) (last : Str) : objects.target place (token::rest) last = ⟨[],place,token⟩ := by
  rw [target]
  split
  next nested found => exact absurd found (other nested)
  next => rfl

theorem Sound.wrote (sound : objects.Sound) {place : Place} (known : place ∈ objects.places) (front : List Str) (last : Str)
    (held : Held) : Wrote objects (objects.writeTokens place front last held) place (front ++ [last]) held
      (objects.target place front last) := by
  induction front generalizing place with
  | nil =>
    rw [writeTokens,target]
    refine ⟨rfl,?_,[],held,rfl,?_,?_,fun more => absurd rfl more,fun back apart => absurd apart unrelated_nil⟩
    · intro q _ key other
      rw [lookup_write,if_neg (fun both => other ⟨both.1.symm,both.2⟩)]
    · rw [lookup_write,if_pos ⟨rfl,rfl⟩]
    · cases held <;> rfl
  | cons token rest ih =>
    rw [writeTokens]
    split
    next nested found =>
      rw [target_of_object found]
      obtain ⟨leads,same,more,new,keys,there,built,fresh,nothing⟩ := ih (sound.closed.lookup found)
      refine ⟨?_,same,more,new,?_,there,built,fresh,nothing⟩
      · rw [descend,found]
        exact leads
      · rw [List.cons_append,keys]
        rfl
    next noObject =>
      rw [target_of_other noObject]
      have here := not_made_of_mem_places known
      have members : ∀ q, q ≠ place →
          (objects.alloc.write ⟨place,token,.object (.made objects.made)⟩).membersOf q = objects.membersOf q := by
        intro q other
        rw [membersOf_write,if_neg (fun same => other same.symm),membersOf_alloc]
      have made : (objects.alloc.write ⟨place,token,.object (.made objects.made)⟩).made = objects.made + 1 := rfl
      obtain ⟨same,built,nothing⟩ := @writeTokens_empty (objects.alloc.write ⟨place,token,.object (.made objects.made)⟩)
        (.made objects.made) ((members _ (here _ le_rfl).symm).trans (sound.unused _ le_rfl))
        (fun n later => (members _ (here n (by omega)).symm).trans (sound.unused n (by omega)))
        (fun n later => by rw [made] at later; intro same; cases same; omega) rest last held
      have old := fun q (inside : q ∈ objects.places) key =>
        same q key (not_made_of_mem_places inside _ le_rfl) (fun n later => not_made_of_mem_places inside n (by omega))
      refine ⟨rfl,?_,rest ++ [last],.object (.made objects.made),rfl,?_,built,fun _ inner found => ?_,nothing⟩
      · intro q inside key other
        rw [old q inside,lookup_write,if_neg (fun both => other ⟨both.1.symm,both.2⟩),lookup_alloc]
      · rw [old place known,lookup_write,if_pos ⟨rfl,rfl⟩]
      · exact noObject inner found

variable {after : Objects} {place : Place} {keys : List Str} {held : Held} {t : Target}

end Writing

section Given

theorem sound_start (arguments : Dict) : (start arguments).Sound :=
  ⟨fun _ none_ => (nomatch none_),fun _ _ => rfl⟩

theorem descend_start {arguments : Dict} {keys walk : List Str} {place : Place}
    (leads : (start arguments).descend walk (.object (.argument keys)) = some (.object place)) :
    place = .argument (keys ++ walk) := by
  induction walk generalizing keys with
  | nil =>
    cases leads
    rw [List.append_nil]
  | cons key rest ih =>
    rw [descend,lookup_start] at leads
    cases found : (givenAt keys arguments).bind (Assoc.get key) with
    | none =>
      rw [found] at leads
      cases leads
    | some v =>
      rw [found] at leads
      cases v with
      | dict below =>
        have inside := @ih (keys ++ [key]) leads
        rwa [List.append_assoc] at inside
      | _ => cases rest <;> cases leads

/-- Arguments as they were given are a tree. -/
theorem isTree_start (arguments : Dict) : (start arguments).IsTree (.argument []) := by
  intro one two place first second
  have same := (descend_start first).symm.trans (descend_start second)
  simpa using same

end Given

end Objects

section Shared

end Shared

end ToolLayer.Policy
