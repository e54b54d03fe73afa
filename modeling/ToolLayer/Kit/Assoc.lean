import Mathlib.Data.List.Nodup

/-! Insertion-ordered association lists: lookup, update in place and removal,
with the frame rules that a store written one key at a time needs. -/
namespace Kit.Assoc

variable {K : Type*} {V W : Type*}

def keys (entries : List (K × V)) : List K := entries.map Prod.fst

@[simp] theorem keys_nil : keys ([] : List (K × V)) = [] := rfl

@[simp] theorem keys_cons (key : K) (value : V) (rest : List (K × V)) :
    keys ((key,value)::rest) = key :: keys rest := rfl

variable [DecidableEq K]

def get (k : K) : List (K × V) → Option V
  | [] => none
  | (key,value)::rest => if key = k then some value else get k rest

/-- Overwrites in place when the key is present, appends otherwise. -/
def set (k : K) (v : V) : List (K × V) → List (K × V)
  | [] => [(k,v)]
  | (key,value)::rest => if key = k then (key,v)::rest else (key,value)::set k v rest

def erase (k : K) : List (K × V) → List (K × V)
  | [] => []
  | (key,value)::rest => if key = k then erase k rest else (key,value) :: erase k rest

@[simp] theorem get_nil (k : K) : get k ([] : List (K × V)) = none := rfl

@[simp] theorem get_cons (k key : K) (value : V) (rest : List (K × V)) :
    get k ((key,value)::rest) = if key = k then some value else get k rest := rfl

theorem mem_of_get {k : K} {v : V} {entries : List (K × V)} (found : get k entries = some v) :
    (k,v) ∈ entries := by
  induction entries with
  | nil => simp at found
  | cons entry rest ih =>
    obtain ⟨key,value⟩ := entry
    rw [get_cons] at found
    split at found
    next same =>
      subst same
      simp [Option.some.inj found]
    next other => exact List.mem_cons_of_mem _ (ih found)

theorem get_isSome_iff {k : K} {entries : List (K × V)} :
    (get k entries).isSome ↔ k ∈ keys entries := by
  induction entries with
  | nil => simp
  | cons entry rest ih =>
    obtain ⟨key,value⟩ := entry
    rw [get_cons,keys_cons,List.mem_cons]
    split
    next same => simp [same]
    next other => rw [ih]; simp [Ne.symm other]

theorem get_eq_none_iff {k : K} {entries : List (K × V)} :
    get k entries = none ↔ k ∉ keys entries := by
  rw [← get_isSome_iff,Option.not_isSome_iff_eq_none]

theorem get_of_mem {k : K} {v : V} {entries : List (K × V)} (distinct : (keys entries).Nodup)
    (member : (k,v) ∈ entries) : get k entries = some v := by
  induction entries with
  | nil => simp at member
  | cons entry rest ih =>
    obtain ⟨key,value⟩ := entry
    rw [keys_cons,List.nodup_cons] at distinct
    rw [get_cons]
    rcases List.mem_cons.mp member with head | tail
    · cases head
      simp
    · have other : key ≠ k := by
        intro same
        subst same
        exact distinct.1 (List.mem_map.mpr ⟨_,tail,rfl⟩)
      rw [if_neg other]
      exact ih distinct.2 tail

@[simp] theorem get_set_same (k : K) (v : V) (entries : List (K × V)) :
    get k (set k v entries) = some v := by
  induction entries with
  | nil => simp [set]
  | cons entry rest ih =>
    obtain ⟨key,value⟩ := entry
    unfold set
    split
    next same => simp [same]
    next other => simp [other,ih]

theorem get_set_other {k j : K} (v : V) (entries : List (K × V)) (other : j ≠ k) :
    get k (set j v entries) = get k entries := by
  induction entries with
  | nil => simp [set,other]
  | cons entry rest ih =>
    obtain ⟨key,value⟩ := entry
    unfold set
    split
    next same =>
      subst same
      simp [other]
    next different => rw [get_cons,get_cons,ih]

theorem keys_set (k : K) (v : V) (entries : List (K × V)) :
    keys (set k v entries) = if k ∈ keys entries then keys entries else keys entries ++ [k] := by
  induction entries with
  | nil => simp [set]
  | cons entry rest ih =>
    obtain ⟨key,value⟩ := entry
    unfold set
    split
    next same => simp [same]
    next other =>
      rw [keys_cons,keys_cons,ih]
      by_cases present : k ∈ keys rest
      · simp [present]
      · simp [present,Ne.symm other]

theorem get_append {k : K} {v : V} {front : List (K × V)} (back : List (K × V)) (found : get k front = some v) :
    get k (front ++ back) = some v := by
  induction front with
  | nil => simp at found
  | cons entry rest ih =>
    obtain ⟨key,value⟩ := entry
    rw [get_cons] at found
    rw [List.cons_append,get_cons]
    split
    next same => rwa [if_pos same] at found
    next other =>
      rw [if_neg other] at found
      exact ih found

theorem mem_set {k : K} {v : V} {entries : List (K × V)} {entry : K × V} (member : entry ∈ set k v entries) :
    entry = (k,v) ∨ entry ∈ entries := by
  induction entries with
  | nil => exact Or.inl (List.mem_singleton.mp member)
  | cons first rest ih =>
    obtain ⟨key,value⟩ := first
    rw [set] at member
    split at member
    next same =>
      rcases List.mem_cons.mp member with new | old
      · exact Or.inl (by rw [new,same])
      · exact Or.inr (List.mem_cons_of_mem _ old)
    next =>
      rcases List.mem_cons.mp member with kept | later
      · exact Or.inr (kept ▸ List.mem_cons_self)
      · exact (ih later).imp_right (List.mem_cons_of_mem _)

theorem set_of_absent {k : K} {v : V} {entries : List (K × V)} (absent : k ∉ keys entries) :
    set k v entries = entries ++ [(k,v)] := by
  induction entries with
  | nil => rfl
  | cons entry rest ih =>
    obtain ⟨key,value⟩ := entry
    rw [keys_cons,List.mem_cons,not_or] at absent
    rw [set,if_neg (Ne.symm absent.1),ih absent.2,List.cons_append]

theorem nodup_keys_set (k : K) (v : V) (entries : List (K × V)) (distinct : (keys entries).Nodup) :
    (keys (set k v entries)).Nodup := by
  rw [keys_set]
  split
  next present => exact distinct
  next absent => exact List.nodup_append'.mpr ⟨distinct,List.nodup_singleton k,by simpa using absent⟩

theorem get_erase_other {k j : K} (entries : List (K × V)) (other : k ≠ j) :
    get k (erase j entries) = get k entries := by
  induction entries with
  | nil => rfl
  | cons entry rest ih =>
    obtain ⟨key,value⟩ := entry
    unfold erase
    split
    next same =>
      subst same
      rw [get_cons,if_neg (Ne.symm other),ih]
    next different => rw [get_cons,get_cons,ih]

theorem erase_of_absent {k : K} {entries : List (K × V)} (absent : k ∉ keys entries) :
    erase k entries = entries := by
  induction entries with
  | nil => rfl
  | cons entry rest ih =>
    obtain ⟨key,value⟩ := entry
    rw [keys_cons,List.mem_cons,not_or] at absent
    rw [erase,if_neg (Ne.symm absent.1),ih absent.2]

theorem get_mapKey (k : K) (f : K → V → W) (entries : List (K × V)) :
    get k (entries.map (fun entry => (entry.1,f entry.1 entry.2))) = (get k entries).map (f k) := by
  induction entries with
  | nil => rfl
  | cons entry rest ih =>
    obtain ⟨key,value⟩ := entry
    rw [List.map_cons,get_cons,get_cons,ih]
    split
    next same => rw [same,Option.map_some]
    next => rfl

theorem get_map (k : K) (f : V → W) (entries : List (K × V)) :
    get k (entries.map (fun entry => (entry.1,f entry.2))) = (get k entries).map f := get_mapKey k (fun _ => f) entries

end Kit.Assoc
