import ToolLayer.Python.Unicode

/-! What a log line may show of a payload: the values under sensitive names are replaced. -/
namespace ToolLayer.Policy
open Python Kit

section Names

/-- `_SENSITIVE_HEADERS`. -/
def sensitiveHeaders : List Str := ["authorization","proxy-authorization","cookie","set-cookie","x-api-key","x-auth-token",
  "x-toollayer-admin-token","x-toollayer-service-token"]

/-- `[_\-.]`. -/
def isJoint (c : CodePoint) : Bool := c == '_' || c == '-' || c == '.'

/-- What a letter of a pattern matches under `re.IGNORECASE`: four letters beyond ASCII fold onto one. -/
def foldsTo (letter c : CodePoint) : Bool :=
  c.asciiLower == letter || (letter == 'i' && (c.val == 0x130 || c.val == 0x131)) ||
    (letter == 's' && c.val == 0x17F) || (letter == 'k' && c.val == 0x212A)

/-- What is left behind a word. -/
def afterWord : Str → Str → Option Str
  | [],s => some s
  | _::_,[] => none
  | letter::word,c::rest => if foldsTo letter c then afterWord word rest else none

/-- `(?:$|[_\-.])`; `$` also stands before a final line break. -/
def endsName : Str → Bool
  | [] => true
  | c::rest => isJoint c || (c == '\n' && rest.isEmpty)

def startsWord (word s : Str) : Bool := (afterWord word s).any endsName

/-- A word and `key`, with or without a joint between them. -/
def startsKey (word s : Str) : Bool :=
  (afterWord word s).any (fun rest => startsWord "key" rest ||
    (match rest with
    | c::later => isJoint c && startsWord "key" later
    | [] => false))

def startsSecret (s : Str) : Bool :=
  [Str.lit "secret",Str.lit "token",Str.lit "password",Str.lit "passwd",Str.lit "credential"].any (fun word => startsWord word s) ||
    [Str.lit "api",Str.lit "private"].any (fun word => startsKey word s)

/-- `_SENSITIVE_NAME.search`; `free` says that a word may start here. -/
def namesSecret (free : Bool) : Str → Bool
  | [] => false
  | c::rest => free && startsSecret (c::rest) || namesSecret (isJoint c) rest

/-- `_is_sensitive`. -/
def isSensitive [Unicode] (name : Str) : Bool :=
  sensitiveHeaders.contains (Unicode.lower name) || namesSecret true (Unicode.lower name)

end Names

/-- What is handed to a log line: mappings with text keys, lists and tuples, and values that contain
nothing further. -/
inductive Payload (A : Type) where
  | text (s : Str)
  | plain (a : A)
  | list (items : List (Payload A))
  | tuple (items : List (Payload A))
  | mapping (members : List (Str × Payload A))

namespace Payload

variable {A : Type}

/-- `REDACTED`. -/
def redacted : Payload A := .text "[redacted]"

theorem induct {motive : Payload A → Prop} (text : ∀ s, motive (.text s)) (plain : ∀ a, motive (.plain a))
    (list : ∀ items, (∀ v ∈ items, motive v) → motive (.list items))
    (tuple : ∀ items, (∀ v ∈ items, motive v) → motive (.tuple items))
    (mapping : ∀ members, (∀ m ∈ members, motive m.2) → motive (.mapping members)) (v : Payload A) : motive v := by
  exact @Payload.rec A motive (fun items => ∀ v ∈ items, motive v) (fun members => ∀ m ∈ members, motive m.2)
    (fun m => motive m.2) text plain list tuple mapping
    (fun _ member => nomatch member) (fun _ _ first rest => List.forall_mem_cons.mpr ⟨first,rest⟩)
    (fun _ member => nomatch member) (fun _ _ first rest => List.forall_mem_cons.mpr ⟨first,rest⟩)
    (fun _ _ value => value) v

variable [Unicode]

mutual
/-- The members of a mapping that lies `depth` deep. -/
def redactMembers (depth : Nat) : List (Str × Payload A) → List (Str × Payload A)
  | [] => []
  | (name,value)::rest => (name,if isSensitive name then redacted else redactValue depth value) :: redactMembers depth rest
def redactValue (depth : Nat) : Payload A → Payload A
  | .mapping inner => .mapping (if 6 < depth + 1 then [(Str.lit "...",redacted)] else redactMembers (depth + 1) inner)
  | .list items => .list ((redactItems depth items).take 50)
  | .text s => .text s
  | .plain a => .plain a
  | .tuple items => .tuple items
/-- The items of a list: mappings are redacted, everything else is passed on. -/
def redactItems (depth : Nat) : List (Payload A) → List (Payload A)
  | [] => []
  | item::rest => redactItem depth item :: redactItems depth rest
def redactItem (depth : Nat) : Payload A → Payload A
  | .mapping inner => .mapping (if 6 < depth + 1 then [(Str.lit "...",redacted)] else redactMembers (depth + 1) inner)
  | .list items => .list items
  | .text s => .text s
  | .plain a => .plain a
  | .tuple items => .tuple items
end

/-- `redact_mapping`. -/
def redactMapping (depth : Nat) (members : List (Str × Payload A)) : List (Str × Payload A) :=
  if 6 < depth then [(Str.lit "...",redacted)] else redactMembers depth members

mutual
/-- Every outermost value under a sensitive name changed by `f`. -/
def underMembers (f : Payload A → Payload A) : List (Str × Payload A) → List (Str × Payload A)
  | [] => []
  | (name,value)::rest => (name,if isSensitive name then f value else under f value) :: underMembers f rest
def under (f : Payload A → Payload A) : Payload A → Payload A
  | .mapping members => .mapping (underMembers f members)
  | .list items => .list (underItems f items)
  | .tuple items => .tuple (underItems f items)
  | .text s => .text s
  | .plain a => .plain a
def underItems (f : Payload A → Payload A) : List (Payload A) → List (Payload A)
  | [] => []
  | item::rest => under f item :: underItems f rest
end

/-- A payload without what stands under sensitive names. -/
def mask : Payload A → Payload A := under (fun _ => redacted)

/-- A payload with something else under every sensitive name. -/
def alter : Payload A → Payload A := under (fun v => .list [v])

/-- Somewhere in the payload, `value` stands under `name`. -/
inductive Entry (name : Str) (value : Payload A) : Payload A → Prop where
  | here {members : List (Str × Payload A)} (member : (name,value) ∈ members) : Entry name value (.mapping members)
  | member {members : List (Str × Payload A)} {m : Str × Payload A} (inside : m ∈ members)
      (below : Entry name value m.2) : Entry name value (.mapping members)
  | item {items : List (Payload A)} {v : Payload A} (inside : v ∈ items) (below : Entry name value v) :
      Entry name value (.list items)
  | element {items : List (Payload A)} {v : Payload A} (inside : v ∈ items) (below : Entry name value v) :
      Entry name value (.tuple items)

/-- No sensitive name occurs in the payload. -/
def Clean (v : Payload A) : Prop := ∀ name value, Entry name value v → isSensitive name = false

def isMapping : Payload A → Bool
  | .mapping _ => true
  | _ => false

/-- `redact_mapping` puts `v` into its result without looking into it: a tuple, or an item of a
list that is no mapping. -/
inductive PassedOn (v : Payload A) : Nat → List (Str × Payload A) → Prop where
  | tuple {depth : Nat} {members items} (shallow : depth ≤ 6) {name : Str} (member : (name,v) ∈ members)
      (open_ : isSensitive name = false) (shape : v = .tuple items) : PassedOn v depth members
  | item {depth : Nat} {members items} (shallow : depth ≤ 6) {name : Str} (member : (name,.list items) ∈ members)
      (open_ : isSensitive name = false) (inside : v ∈ items.take 50) (other : v.isMapping = false) : PassedOn v depth members
  | mapping {depth : Nat} {members inner} (shallow : depth ≤ 6) {name : Str} (member : (name,.mapping inner) ∈ members)
      (open_ : isSensitive name = false) (below : PassedOn v (depth + 1) inner) : PassedOn v depth members
  | element {depth : Nat} {members items inner} (shallow : depth ≤ 6) {name : Str} (member : (name,.list items) ∈ members)
      (open_ : isSensitive name = false) (inside : .mapping inner ∈ items.take 50) (below : PassedOn v (depth + 1) inner) :
      PassedOn v depth members

section Maps

theorem redactMembers_eq (depth : Nat) (members : List (Str × Payload A)) : redactMembers depth members =
    members.map (fun m => (m.1,if isSensitive m.1 then redacted else redactValue depth m.2)) := by
  induction members with
  | nil => rfl
  | cons m rest ih =>
    rw [List.map_cons,← ih]
    rfl

theorem redactItems_eq (depth : Nat) (items : List (Payload A)) : redactItems depth items = items.map (redactItem depth) := by
  induction items with
  | nil => rfl
  | cons v rest ih =>
    rw [List.map_cons,← ih]
    rfl

theorem redactValue_mapping (depth : Nat) (inner : List (Str × Payload A)) :
    redactValue depth (.mapping inner) = .mapping (redactMapping (depth + 1) inner) := rfl

theorem redactItem_mapping (depth : Nat) (inner : List (Str × Payload A)) :
    redactItem depth (.mapping inner) = .mapping (redactMapping (depth + 1) inner) := rfl

theorem redactValue_list (depth : Nat) (items : List (Payload A)) :
    redactValue depth (.list items) = .list ((items.take 50).map (redactItem depth)) := by
  rw [List.map_take,← redactItems_eq]
  rfl

theorem redactItem_other {v : Payload A} (other : v.isMapping = false) (depth : Nat) : redactItem depth v = v := by
  cases v with
  | mapping members => cases other
  | text s => rfl
  | plain a => rfl
  | list items => rfl
  | tuple items => rfl

variable {f g : Payload A → Payload A}

theorem underMembers_eq (f : Payload A → Payload A) (members : List (Str × Payload A)) : underMembers f members =
    members.map (fun m => (m.1,if isSensitive m.1 then f m.2 else under f m.2)) := by
  induction members with
  | nil => rfl
  | cons m rest ih =>
    rw [List.map_cons,← ih]
    rfl

theorem underItems_eq (f : Payload A → Payload A) (items : List (Payload A)) : underItems f items = items.map (under f) := by
  induction items with
  | nil => rfl
  | cons v rest ih =>
    rw [List.map_cons,← ih]
    rfl

theorem under_mapping (members : List (Str × Payload A)) : under f (.mapping members) =
    .mapping (members.map (fun m => (m.1,if isSensitive m.1 then f m.2 else under f m.2))) :=
  congrArg Payload.mapping (underMembers_eq f members)

theorem under_list (items : List (Payload A)) : under f (.list items) = .list (items.map (under f)) :=
  congrArg Payload.list (underItems_eq f items)

theorem under_tuple (items : List (Payload A)) : under f (.tuple items) = .tuple (items.map (under f)) :=
  congrArg Payload.tuple (underItems_eq f items)

theorem isMapping_under (v : Payload A) : (under f v).isMapping = v.isMapping := by
  cases v <;> rfl

/-- A change is not seen by a later one that ignores what it replaces. -/
theorem under_under (constant : ∀ v, g (f v) = g v) (v : Payload A) : under g (under f v) = under g v := by
  induction v using Payload.induct with
  | text s => rfl
  | plain a => rfl
  | list items ih =>
    rw [under_list,under_list,under_list,List.map_map]
    exact congrArg Payload.list (List.map_congr_left ih)
  | tuple items ih =>
    rw [under_tuple,under_tuple,under_tuple,List.map_map]
    exact congrArg Payload.tuple (List.map_congr_left ih)
  | mapping members ih =>
    rw [under_mapping,under_mapping,under_mapping,List.map_map]
    refine congrArg Payload.mapping (List.map_congr_left (fun m member => ?_))
    simp only [Function.comp_apply]
    split
    next => rw [constant]
    next => rw [ih m member]

end Maps

section Cleanness

theorem Clean.list {items : List (Payload A)} (clean : Clean (.list items)) {v : Payload A} (inside : v ∈ items) : Clean v :=
  fun name value entry => clean name value (.item inside entry)

theorem Clean.tuple {items : List (Payload A)} (clean : Clean (.tuple items)) {v : Payload A} (inside : v ∈ items) : Clean v :=
  fun name value entry => clean name value (.element inside entry)

theorem Clean.member {members : List (Str × Payload A)} (clean : Clean (.mapping members)) {m : Str × Payload A}
    (inside : m ∈ members) : Clean m.2 := fun name value entry => clean name value (.member inside entry)

/-- What only masking could make free of sensitive names is free of them. -/
theorem eq_of_mask {w v : Payload A} (same : mask w = v) (clean : Clean v) : w = v := by
  subst same
  induction w using Payload.induct with
  | text s => rw [mask,under]
  | plain a => rw [mask,under]
  | list items ih =>
    rw [mask,under_list] at clean ⊢
    have kept : items.map (under fun _ => redacted) = items.map id :=
      List.map_congr_left (fun v inside => (ih v inside (clean.list (List.mem_map_of_mem inside))).symm)
    rw [kept,List.map_id]
  | tuple items ih =>
    rw [mask,under_tuple] at clean ⊢
    have kept : items.map (under fun _ => redacted) = items.map id :=
      List.map_congr_left (fun v inside => (ih v inside (clean.tuple (List.mem_map_of_mem inside))).symm)
    rw [kept,List.map_id]
  | mapping members ih =>
    rw [mask,under_mapping] at clean ⊢
    have kept : members.map (fun m => (m.1,if isSensitive m.1 then redacted else under (fun _ => redacted) m.2)) =
        members.map id := by
      refine List.map_congr_left (fun m inside => ?_)
      have there := List.mem_map_of_mem (f := fun m : Str × Payload A =>
        (m.1,if isSensitive m.1 then redacted else under (fun _ => redacted) m.2)) inside
      have open_ : isSensitive m.1 = false := clean m.1 _ (.here there)
      have below := clean.member there
      simp only [open_,Bool.false_eq_true,if_false] at below ⊢
      rw [← mask,← ih m inside below]
      rfl
    rw [kept,List.map_id]

theorem exists_mapping {w : Payload A} {inner : List (Str × Payload A)} (same : mask w = mask (.mapping inner)) :
    ∃ more, w = .mapping more := by
  cases w with
  | mapping more => exact ⟨more,rfl⟩
  | _ => cases same

theorem exists_list {w : Payload A} {items : List (Payload A)} (same : mask w = mask (.list items)) :
    ∃ more, w = .list more := by
  cases w with
  | list more => exact ⟨more,rfl⟩
  | _ => cases same

theorem mask_of_clean {v : Payload A} (clean : Clean v) : mask v = v := by
  induction v using Payload.induct with
  | text s => rw [mask,under]
  | plain a => rw [mask,under]
  | list items ih =>
    rw [mask,under_list]
    have kept := List.map_congr_left (f := mask) (g := id) (fun v inside => ih v inside (clean.list inside))
    exact congrArg Payload.list (kept.trans (List.map_id _))
  | tuple items ih =>
    rw [mask,under_tuple]
    have kept := List.map_congr_left (f := mask) (g := id) (fun v inside => ih v inside (clean.tuple inside))
    exact congrArg Payload.tuple (kept.trans (List.map_id _))
  | mapping members ih =>
    rw [mask,under_mapping]
    have kept : members.map (fun m => (m.1,if isSensitive m.1 then redacted else under (fun _ => redacted) m.2)) =
        members.map id := by
      refine List.map_congr_left (fun m inside => ?_)
      have open_ : isSensitive m.1 = false := clean m.1 _ (.here inside)
      simp only [open_,Bool.false_eq_true,if_false]
      exact Prod.ext rfl (ih m inside (clean.member inside))
    rw [kept,List.map_id]

theorem eq_of_mask_eq {w v : Payload A} (same : mask w = mask v) (clean : Clean v) : w = v :=
  eq_of_mask (same.trans (mask_of_clean clean)) clean

omit [Unicode] in
theorem wrapped_ne (v : Payload A) : Payload.list [v] ≠ v := by
  intro same
  have size := congrArg sizeOf same
  simp only [list.sizeOf_spec,List.cons.sizeOf_spec] at size
  omega

/-- Where the change shows nowhere there is nothing to change. -/
theorem clean_of_alter {v : Payload A} (same : alter v = v) : Clean v := by
  intro name value entry
  induction entry with
  | here member =>
    rw [alter,under_mapping] at same
    have kept := List.map_eq_map_iff.mp ((Payload.mapping.inj same).trans (List.map_id _).symm) _ member
    rw [← Bool.not_eq_true]
    intro sensitive
    simp only [sensitive,if_true] at kept
    exact wrapped_ne value (congrArg Prod.snd kept)
  | member inside below ih =>
    rename_i members m
    rw [alter,under_mapping] at same
    have kept := List.map_eq_map_iff.mp ((Payload.mapping.inj same).trans (List.map_id _).symm) _ inside
    have second := congrArg Prod.snd kept
    simp only [id_eq] at second
    split at second
    next => exact absurd second (wrapped_ne m.2)
    next => exact ih second
  | item inside below ih =>
    rw [alter,under_list] at same
    exact ih (List.map_eq_map_iff.mp ((Payload.list.inj same).trans (List.map_id _).symm) _ inside)
  | element inside below ih =>
    rw [alter,under_tuple] at same
    exact ih (List.map_eq_map_iff.mp ((Payload.tuple.inj same).trans (List.map_id _).symm) _ inside)

theorem mask_alter (v : Payload A) : mask (alter v) = mask v :=
  under_under (f := fun v => .list [v]) (fun _ => rfl) v

end Cleanness

section Concealment

/-- Redaction shows nothing of what stands under sensitive names: with anything else in its place,
at any depth, the result is the same. -/
def Conceals (depth : Nat) (members : List (Str × Payload A)) : Prop :=
  ∀ other, mask (.mapping other) = mask (.mapping members) → redactMapping depth other = redactMapping depth members

theorem redactMapping_shallow {depth : Nat} (shallow : depth ≤ 6) (members : List (Str × Payload A)) :
    redactMapping depth members = members.map (fun m => (m.1,if isSensitive m.1 then redacted else redactValue depth m.2)) := by
  rw [redactMapping,if_neg (by omega),redactMembers_eq]

/-- What is passed on stands in the result as it is. -/
theorem alter_of_passedOn {v : Payload A} {depth : Nat} {members : List (Str × Payload A)} (passed : PassedOn v depth members)
    (same : redactMapping depth (underMembers (fun v => .list [v]) members) = redactMapping depth members) : alter v = v := by
  -- A member that is not sensitive is altered first and redacted then.
  have value : ∀ {depth : Nat} {members : List (Str × Payload A)} {name : Str} {w : Payload A}, depth ≤ 6 →
      (name,w) ∈ members → isSensitive name = false →
      redactMapping depth (underMembers (fun v => .list [v]) members) = redactMapping depth members →
      redactValue depth (alter w) = redactValue depth w := by
    intro depth members name w shallow member open_ same
    rw [redactMapping_shallow shallow,redactMapping_shallow shallow,underMembers_eq,List.map_map] at same
    have kept := congrArg Prod.snd (List.map_eq_map_iff.mp same _ member)
    simp only [Function.comp_apply,open_,Bool.false_eq_true,if_false] at kept
    exact kept
  have item : ∀ {depth : Nat} {members : List (Str × Payload A)} {name : Str} {items : List (Payload A)} {w : Payload A},
      depth ≤ 6 → (name,Payload.list items) ∈ members → isSensitive name = false → w ∈ items.take 50 →
      redactMapping depth (underMembers (fun v => .list [v]) members) = redactMapping depth members →
      redactItem depth (alter w) = redactItem depth w := by
    intro depth members name items w shallow member open_ inside same
    have kept := value shallow member open_ same
    rw [alter,under_list,redactValue_list,redactValue_list,← List.map_take,List.map_map] at kept
    exact List.map_eq_map_iff.mp (Payload.list.inj kept) w inside
  induction passed with
  | tuple shallow member open_ shape =>
    have kept := value shallow member open_ same
    rw [shape,alter,under_tuple,redactValue,redactValue] at kept
    rw [shape,alter,under_tuple,kept]
  | item shallow member open_ inside other =>
    have kept := item shallow member open_ inside same
    have still : (alter v).isMapping = false := (isMapping_under v).trans other
    rwa [redactItem_other still,redactItem_other other] at kept
  | mapping shallow member open_ below ih =>
    have kept := value shallow member open_ same
    rw [alter,under,redactValue_mapping,redactValue_mapping] at kept
    exact ih (Payload.mapping.inj kept)
  | element shallow member open_ inside below ih =>
    have kept := item shallow member open_ inside same
    rw [alter,under,redactItem_mapping,redactItem_mapping] at kept
    exact ih (Payload.mapping.inj kept)

omit [Unicode] in
/-- Two lists that agree under one function agree under every function it decides. -/
theorem map_eq_of_map_eq {B C D : Type} {f : B → C} {g : B → D} {first second : List B}
    (decides : ∀ x, ∀ y ∈ second, f x = f y → g x = g y) (same : first.map f = second.map f) : first.map g = second.map g := by
  induction first generalizing second with
  | nil =>
    cases second with
    | nil => rfl
    | cons y rest => cases same
  | cons x rest ih =>
    cases second with
    | nil => cases same
    | cons y more =>
      rw [List.map_cons,List.map_cons,List.cons.injEq] at same
      rw [List.map_cons,List.map_cons,decides x y List.mem_cons_self same.1,
        ih (fun x y later => decides x y (List.mem_cons_of_mem _ later)) same.2]

/-- What is under one mask is redacted alike, once everything passed on is free of sensitive names. -/
theorem redactMapping_congr {members : List (Str × Payload A)}
    (below : ∀ m ∈ members, ∀ inner, m.2 = .mapping inner ∨ (∃ items, m.2 = .list items ∧ .mapping inner ∈ items) →
      ∀ depth, (∀ v, PassedOn v depth inner → Clean v) → Conceals depth inner)
    {depth : Nat} (clean : ∀ v, PassedOn v depth members → Clean v) : Conceals depth members := by
  intro other same
  by_cases deep : 6 < depth
  · rw [redactMapping,if_pos deep,redactMapping,if_pos deep]
  have shallow : depth ≤ 6 := by omega
  rw [mask,under_mapping,under_mapping] at same
  rw [redactMapping_shallow shallow,redactMapping_shallow shallow]
  refine map_eq_of_map_eq ?_ (Payload.mapping.inj same)
  rintro ⟨name,w⟩ ⟨key,v⟩ member alike
  obtain ⟨rfl,alike⟩ := Prod.mk.inj alike
  simp only at alike ⊢
  cases open_ : isSensitive name with
  | true => rfl
  | false =>
    rw [open_] at alike
    simp only [Bool.false_eq_true,if_false] at alike ⊢
    change mask w = mask v at alike
    refine congrArg (Prod.mk name) ?_
    cases v with
    | text s => rw [eq_of_mask_eq alike (fun _ _ entry => nomatch entry)]
    | plain a => rw [eq_of_mask_eq alike (fun _ _ entry => nomatch entry)]
    | tuple items => rw [eq_of_mask_eq alike (clean _ (.tuple shallow member open_ rfl))]
    | mapping inner =>
      obtain ⟨more,rfl⟩ := exists_mapping alike
      rw [redactValue_mapping,redactValue_mapping]
      exact congrArg Payload.mapping (below _ member inner (Or.inl rfl) (depth + 1)
        (fun v passed => clean v (.mapping shallow member open_ passed)) more alike)
    | list items =>
      obtain ⟨more,rfl⟩ := exists_list alike
      rw [redactValue_list,redactValue_list]
      rw [mask,under_list,under_list] at alike
      have front := congrArg (List.take 50) (Payload.list.inj alike)
      rw [← List.map_take,← List.map_take] at front
      refine congrArg Payload.list (map_eq_of_map_eq ?_ front)
      intro x y inside alike
      change mask x = mask y at alike
      cases there : y.isMapping with
      | false => rw [eq_of_mask_eq alike (clean y (.item shallow member open_ inside there))]
      | true =>
        cases y with
        | mapping inner =>
          obtain ⟨more,rfl⟩ := exists_mapping alike
          rw [redactItem_mapping,redactItem_mapping]
          exact congrArg Payload.mapping (below _ member inner (Or.inr ⟨items,rfl,List.mem_of_mem_take inside⟩) (depth + 1)
            (fun v passed => clean v (.element shallow member open_ inside passed)) more alike)
        | _ => cases there

/-- Redaction conceals a payload exactly if what it passes on without a look, tuples and the items of
lists that are no mappings, is free of sensitive names. -/
theorem conceals_iff (depth : Nat) (members : List (Str × Payload A)) :
    Conceals depth members ↔ ∀ v, PassedOn v depth members → Clean v := by
  constructor
  · intro conceals v passed
    have altered := mask_alter (Payload.mapping members)
    rw [alter,under] at altered
    exact clean_of_alter (alter_of_passedOn passed (conceals _ altered))
  · have all : ∀ v : Payload A, ∀ inner, v = .mapping inner ∨ (∃ items, v = .list items ∧ .mapping inner ∈ items) →
        ∀ depth, (∀ v, PassedOn v depth inner → Clean v) → Conceals depth inner := by
      intro v
      induction v using Payload.induct with
      | text s =>
        rintro inner (shape | ⟨items,shape,_⟩) <;> cases shape
      | plain a =>
        rintro inner (shape | ⟨items,shape,_⟩) <;> cases shape
      | tuple items ih =>
        rintro inner (shape | ⟨items,shape,_⟩) <;> cases shape
      | list items ih =>
        rintro inner (shape | ⟨same,shape,inside⟩)
        · cases shape
        · cases shape
          exact ih _ inside inner (Or.inl rfl)
      | mapping members ih =>
        rintro inner (shape | ⟨items,shape,_⟩)
        · cases shape
          exact fun depth => redactMapping_congr ih
        · cases shape
    exact all (.mapping members) members (Or.inl rfl) depth

end Concealment

end Payload

section Grid

local instance payloadTables : Unicode := Unicode.asciiOnly

/-- A mapping that lies in a list in a list. -/
def grid (secret : Str) : List (Str × Payload Empty) :=
  [(Str.lit "rows",.list [.list [.mapping [(Str.lit "api_key",.text secret)]]])]

/-- A list in a list is passed on with every key in it. -/
theorem grid_shown : ¬ Payload.Conceals 0 (grid "k") := by
  have plain : isSensitive (Str.lit "rows") = false := by decide
  have secret : isSensitive (Str.lit "api_key") = true := by decide
  have masked : ∀ s t, Payload.mask (.mapping (grid s)) = Payload.mask (.mapping (grid t)) := by
    intro s t
    simp [grid,Payload.mask,Payload.under,Payload.underMembers,Payload.underItems,plain,secret]
  have passed : ∀ s, Payload.redactMapping 0 (grid s) = grid s := by
    intro s
    simp [grid,Payload.redactMapping,Payload.redactMembers,Payload.redactValue,Payload.redactItems,Payload.redactItem,plain]
  intro conceals
  have same := conceals (grid "other") (masked _ _)
  rw [passed,passed] at same
  simp [grid] at same

end Grid

end ToolLayer.Policy
