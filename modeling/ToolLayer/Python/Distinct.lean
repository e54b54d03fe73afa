import ToolLayer.Python.Reload

/-! Values as Python holds them: a dictionary has each key once, at any depth. -/
namespace Python.Value
open Kit

mutual
def distinct : Value → Bool
  | .list items => distinctList items
  | .dict members => decide (Assoc.keys members).Nodup && distinctMembers members
  | _ => true
def distinctList : List Value → Bool
  | [] => true
  | item::rest => distinct item && distinctList rest
def distinctMembers : Dict → Bool
  | [] => true
  | (_,value)::rest => distinct value && distinctMembers rest
end

theorem distinct_list {items : List Value} : distinct (.list items) = true ↔ ∀ v ∈ items, distinct v = true := by
  rw [distinct]
  induction items with
  | nil => simp [distinctList]
  | cons v rest ih => rw [distinctList,Bool.and_eq_true,List.forall_mem_cons,ih]

theorem distinct_dict {members : Dict} :
    distinct (.dict members) = true ↔ (Assoc.keys members).Nodup ∧ ∀ m ∈ members, distinct m.2 = true := by
  have inside : distinctMembers members = true ↔ ∀ m ∈ members, distinct m.2 = true := by
    induction members with
    | nil => simp [distinctMembers]
    | cons m rest ih => rw [distinctMembers,Bool.and_eq_true,List.forall_mem_cons,ih]
  rw [distinct,Bool.and_eq_true,decide_eq_true_eq,inside]

@[simp] theorem distinct_str (s : Str) : distinct (.str s) = true := rfl

@[simp] theorem distinct_null : distinct .null = true := rfl

@[simp] theorem distinct_bool (b : Bool) : distinct (.bool b) = true := rfl

@[simp] theorem distinct_int (n : Int) : distinct (.int n) = true := rfl

theorem distinct_of_get {members : Dict} {key : Str} {value : Value} (distinct_ : distinct (.dict members) = true)
    (found : Assoc.get key members = some value) : distinct value = true :=
  (distinct_dict.mp distinct_).2 _ (Assoc.mem_of_get found)

theorem distinct_get {members : Dict} (key : Str) (distinct_ : distinct (.dict members) = true) :
    distinct (Dict.get members key) = true := by
  unfold Dict.get
  cases found : Assoc.get key members with
  | none => rfl
  | some value => exact distinct_of_get distinct_ found

theorem distinct_set {members : Dict} (key : Str) {value : Value} (distinct_ : distinct (.dict members) = true)
    (new : distinct value = true) : distinct (.dict (Dict.set members key value)) = true := by
  obtain ⟨keys,values⟩ := distinct_dict.mp distinct_
  have nodup := Assoc.nodup_keys_set key value members keys
  refine distinct_dict.mpr ⟨nodup,fun m member => ?_⟩
  have found : Assoc.get m.1 (Assoc.set key value members) = some m.2 := Assoc.get_of_mem nodup member
  by_cases same : m.1 = key
  · rw [same,Assoc.get_set_same] at found
    exact Option.some.inj found ▸ new
  · rw [Assoc.get_set_other value members (Ne.symm same)] at found
    exact distinct_of_get distinct_ found

theorem distinct_reloadMembers {members : Dict} (values : ∀ m ∈ members, distinct (reload m.2) = true) {read : Dict}
    (before : distinct (.dict read) = true) : distinct (.dict (reloadMembers read members)) = true := by
  induction members generalizing read with
  | nil => exact before
  | cons m rest ih =>
    rw [List.forall_mem_cons] at values
    exact ih values.2 (distinct_set m.1.paired before values.1)

/-- What a parser builds from written text has each key once. -/
theorem distinct_reload (v : Value) : distinct (reload v) = true := by
  induction v using Value.induct with
  | list items ih =>
    rw [reload,reloadList_eq_map,distinct_list,List.forall_mem_map]
    exact ih
  | dict members ih =>
    rw [reload]
    exact distinct_reloadMembers ih rfl
  | _ => rfl

theorem distinct_reloadMembers_nil (members : Dict) : distinct (.dict (reloadMembers [] members)) = true :=
  distinct_reload (.dict members)

/-- A value without surrogates is read back as it was written. -/
theorem reload_of_scalar {v : Value} (distinct_ : distinct v = true) (plain : v.scalar = true) : reload v = v := by
  induction v using Value.induct with
  | str s => rw [reload,Str.paired_scalar plain]
  | list items ih =>
    rw [distinct_list] at distinct_
    rw [scalar,every_list] at plain
    rw [reload,reloadList_eq_map]
    congr 1
    conv_rhs => rw [← List.map_id items]
    exact List.map_congr_left (fun v member => ih v member (distinct_ v member) (plain v member))
  | dict members ih =>
    obtain ⟨keys,values⟩ := distinct_dict.mp distinct_
    rw [scalar,every_dict] at plain
    have texts : (Assoc.keys members).all Str.scalar = true := by
      rw [List.all_eq_true]
      intro key member
      obtain ⟨m,inside,rfl⟩ := List.mem_map.mp member
      exact (plain m inside).1
    rw [reload_dict keys texts]
    congr 1
    conv_rhs => rw [← List.map_id members]
    exact List.map_congr_left (fun m member =>
      Prod.ext rfl (ih m member (values m member) (plain m member).2))
  | _ => rfl

theorem reloadMembers_of_scalar {members : Dict} (distinct_ : distinct (.dict members) = true)
    (plain : Value.scalar (.dict members) = true) : reloadMembers [] members = members :=
  Value.dict.inj (reload_of_scalar distinct_ plain)

end Python.Value
