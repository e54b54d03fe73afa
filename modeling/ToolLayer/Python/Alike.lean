import Mathlib.Data.List.Perm.Basic
import ToolLayer.Python.Distinct

/-! Equality of JSON values up to the order of object keys: the relation itself, and that
sorting the keys decides it. -/
namespace Python.Value
open Kit

/-- Equal at every depth; the members of an object may stand in any order. -/
inductive Alike : Value → Value → Prop
  | refl (v : Value) : Alike v v
  | list {items others : List Value} (each : List.Forall₂ Alike items others) : Alike (.list items) (.list others)
  | dict {members middle others : Dict} (reordered : members.Perm middle)
      (keys : Assoc.keys middle = Assoc.keys others)
      (each : List.Forall₂ Alike (middle.map Prod.snd) (others.map Prod.snd)) : Alike (.dict members) (.dict others)

theorem map_sorted_eq {items others : List Value} (each : List.Forall₂ Alike items others)
    (same : ∀ v ∈ items, ∀ w, Alike v w → Same v w) : items.map sorted = others.map sorted := by
  induction each with
  | nil => rfl
  | cons alike rest ih =>
    rw [List.forall_mem_cons] at same
    rw [List.map_cons,List.map_cons,ih same.2]
    exact congrArg (· :: _) (same.1 _ alike)

theorem map_member_eq {ms ns : Dict} {f : Value → Value} (keys : Assoc.keys ms = Assoc.keys ns)
    (values : (ms.map Prod.snd).map f = (ns.map Prod.snd).map f) :
    ms.map (fun m => (m.1,f m.2)) = ns.map (fun m => (m.1,f m.2)) := by
  have zipped : ∀ d : Dict, d.map (fun m => (m.1,f m.2)) = (Assoc.keys d).zip ((d.map Prod.snd).map f) := by
    intro d
    induction d with
    | nil => rfl
    | cons m rest ih => simp [Assoc.keys,ih]
  rw [zipped,zipped,keys,values]

theorem Alike.same {a b : Value} (alike : Alike a b) (distinct : a.distinct = true) : Same a b := by
  induction a using Value.induct generalizing b with
  | list items ih =>
    rw [distinct_list] at distinct
    cases alike with
    | refl => rfl
    | list each =>
      have sorts := map_sorted_eq each (fun v member w alike => ih v member alike (distinct v member))
      unfold Same
      rw [sorted,sorted,sortedList_eq_map,sortedList_eq_map,sorts]
  | dict members ih =>
    rw [distinct_dict] at distinct
    cases alike with
    | refl => rfl
    | @dict _ middle others reordered keys each =>
      have first : Same (.dict members) (.dict middle) := same_of_perm distinct.1 reordered
      have values := map_sorted_eq each (by
        intro v member w alike
        obtain ⟨m,inside,rfl⟩ := List.mem_map.mp member
        have here := reordered.mem_iff.mpr inside
        exact ih m here alike (distinct.2 m here))
      have second : Same (.dict middle) (.dict others) := by
        unfold Same
        rw [sorted,sorted,sortedMembers_eq_map,sortedMembers_eq_map,map_member_eq keys values]
      exact first.trans second
  | _ =>
    cases alike
    rfl

theorem forall₂_of_map_sorted {items others : List Value} (same : items.map sorted = others.map sorted)
    (each : ∀ v ∈ items, ∀ w, Same v w → Alike v w) : List.Forall₂ Alike items others := by
  induction items generalizing others with
  | nil =>
    cases others with
    | nil => exact .nil
    | cons w others => cases same
  | cons v items ih =>
    cases others with
    | nil => cases same
    | cons w others =>
      rw [List.forall_mem_cons] at each
      rw [List.map_cons,List.map_cons,List.cons.injEq] at same
      exact .cons (each.1 w same.1) (ih same.2 each.2)

theorem exists_map_of_perm {A B : Type} {f : A → B} {bs : List B} {as : List A} (moved : bs.Perm (as.map f)) :
    ∃ middle : List A, bs = middle.map f ∧ middle.Perm as :=
  (iff_of_eq (congrFun (congrFun (List.eq_map_comp_perm f) bs) as)).mpr moved

theorem alike_of_same {a b : Value} (json : a.isJson = true) (same : Same a b) : Alike a b := by
  induction a using Value.induct generalizing b with
  | list items ih =>
    cases b with
    | list others =>
      have sorts : items.map sorted = others.map sorted := by
        simpa only [Same,sorted,sortedList_eq_map,Value.list.injEq] using same
      exact .list (forall₂_of_map_sorted sorts (fun v member w same => ih v member (isJson_list.mp json v member) same))
    | _ => cases same
  | dict members ih =>
    cases b with
    | dict others =>
      have sorts : (sortedMembers members).insertionSort keyLe = (sortedMembers others).insertionSort keyLe := by
        simpa only [Same,sorted,Value.dict.injEq] using same
      have moved : (sortedMembers others).Perm (members.map (fun m => (m.1,m.2.sorted))) := by
        rw [← sortedMembers_eq_map]
        exact (List.perm_insertionSort keyLe _).symm.trans (sorts ▸ List.perm_insertionSort keyLe _)
      obtain ⟨middle,shape,reordered⟩ := exists_map_of_perm moved
      rw [sortedMembers_eq_map] at shape
      have keys := congrArg (List.map Prod.fst) shape.symm
      have values := congrArg (List.map Prod.snd) shape.symm
      rw [List.map_map,List.map_map] at keys values
      have values : (middle.map Prod.snd).map sorted = (others.map Prod.snd).map sorted := by
        rw [List.map_map,List.map_map]
        exact values
      refine .dict reordered.symm keys (forall₂_of_map_sorted values ?_)
      intro v member w same
      obtain ⟨m,inside,rfl⟩ := List.mem_map.mp member
      have here := reordered.mem_iff.mp inside
      exact ih m here (isJson_dict.mp json m here) same
    | _ => cases same
  | other kind repr items ih => cases json
  | _ =>
    cases b <;> first
      | cases same
        exact .refl _
      | cases same

/-- Every member of one object has its like in the other. -/
theorem Same.exists_mem {members others : Dict} (same : Same (.dict members) (.dict others)) {m : Str × Value}
    (member : m ∈ members) : ∃ n ∈ others, n.1 = m.1 ∧ Same n.2 m.2 := by
  have equal : (sortedMembers members).insertionSort keyLe = (sortedMembers others).insertionSort keyLe := by
    simpa [Same,sorted] using same
  have moved : (sortedMembers members).Perm (sortedMembers others) :=
    (List.perm_insertionSort keyLe _).symm.trans (equal ▸ List.perm_insertionSort keyLe _)
  have there : (m.1,m.2.sorted) ∈ sortedMembers members := by
    rw [sortedMembers_eq_map]
    exact List.mem_map_of_mem member
  rw [moved.mem_iff,sortedMembers_eq_map,List.mem_map] at there
  obtain ⟨n,inside,shape⟩ := there
  exact ⟨n,inside,(Prod.mk.inj shape).1,(Prod.mk.inj shape).2⟩

theorem eq_int_of_same {v : Value} {n : Int} (same : Same v (.int n)) : v = .int n := by
  cases v <;> simp_all [Same,sorted]

/-- Sorting what is sorted changes nothing. -/
theorem sorted_sorted (v : Value) : v.sorted.sorted = v.sorted := by
  induction v using Value.induct with
  | list items ih =>
    rw [sorted,sorted,sortedList_eq_map,sortedList_eq_map,List.map_map]
    exact congrArg Value.list (List.map_congr_left ih)
  | dict members ih =>
    have settled : sortedMembers ((sortedMembers members).insertionSort keyLe) =
        (sortedMembers members).insertionSort keyLe := by
      rw [sortedMembers_eq_map]
      conv_rhs => rw [← List.map_id ((sortedMembers members).insertionSort keyLe)]
      refine List.map_congr_left (fun m member => ?_)
      rw [(List.perm_insertionSort keyLe _).mem_iff,sortedMembers_eq_map] at member
      obtain ⟨n,inside,rfl⟩ := List.mem_map.mp member
      exact Prod.ext rfl (ih n inside)
    rw [sorted,sorted,settled,(List.pairwise_insertionSort keyLe _).insertionSort_eq]
  | other kind repr items ih =>
    rw [sorted,sorted,sortedList_eq_map,sortedList_eq_map,List.map_map]
    exact congrArg _ (List.map_congr_left ih)
  | _ => rfl

theorem distinct_sorted {v : Value} (distinct_ : v.distinct = true) : v.sorted.distinct = true := by
  induction v using Value.induct with
  | list items ih =>
    rw [distinct_list] at distinct_
    rw [sorted,sortedList_eq_map,distinct_list,List.forall_mem_map]
    exact fun v member => ih v member (distinct_ v member)
  | dict members ih =>
    obtain ⟨keys,values⟩ := distinct_dict.mp distinct_
    have moved := List.perm_insertionSort keyLe (sortedMembers members)
    refine distinct_dict.mpr ⟨?_,fun m member => ?_⟩
    · rw [← keys_sortedMembers] at keys
      exact (moved.map Prod.fst).nodup_iff.mpr keys
    · rw [moved.mem_iff,sortedMembers_eq_map] at member
      obtain ⟨n,inside,rfl⟩ := List.mem_map.mp member
      exact ih n inside (values n inside)
  | _ => rfl

theorem alike_iff_same {a b : Value} (json : a.isJson = true) (distinct : a.distinct = true) : Alike a b ↔ Same a b :=
  ⟨fun alike => alike.same distinct,alike_of_same json⟩

theorem Alike.dict_of_members {members middle others : Dict} (reordered : members.Perm middle)
    (each : List.Forall₂ (fun m n => m.1 = n.1 ∧ Alike m.2 n.2) middle others) :
    Alike (.dict members) (.dict others) := by
  refine .dict reordered ?_ ?_
  · clear reordered
    induction each with
    | nil => rfl
    | cons head _ ih => rw [Assoc.keys_cons,Assoc.keys_cons,ih,head.1]
  · exact List.forall₂_map_left_iff.mpr (List.forall₂_map_right_iff.mpr (each.imp (fun _ _ both => both.2)))

/-- A dictionary whose members are known one by one. -/
theorem perm_of_get {d entries : Dict} (distinct : (Assoc.keys d).Nodup) (names : (Assoc.keys entries).Nodup)
    (known : ∀ m ∈ d, m.1 ∈ Assoc.keys entries) (found : ∀ m ∈ entries, Assoc.get m.1 d = some m.2) :
    d.Perm entries := by
  refine (List.perm_ext_iff_of_nodup (List.Nodup.of_map _ distinct) (List.Nodup.of_map _ names)).mpr (fun m => ?_)
  constructor
  · intro member
    obtain ⟨n,inside,same⟩ := List.mem_map.mp (known m member)
    have here := found n inside
    rw [same,Assoc.get_of_mem distinct member] at here
    exact (Prod.ext same (Option.some.inj here).symm : n = m) ▸ inside
  · intro member
    exact Assoc.mem_of_get (found m member)

/-- What two alike objects are without some of their keys. -/
theorem Alike.without {d e : Dict} (alike : Alike (.dict d) (.dict e)) (names : List Str) :
    Alike (.dict (Dict.without d names)) (.dict (Dict.without e names)) := by
  cases alike with
  | refl => exact .refl _
  | @dict _ middle _ reordered keys each =>
    have members : List.Forall₂ (fun m n : Str × Value => m.1 = n.1 ∧ Alike m.2 n.2) middle e := by
      clear reordered
      induction middle generalizing e with
      | nil =>
        cases e with
        | nil => exact .nil
        | cons n e => cases keys
      | cons m middle ih =>
        cases e with
        | nil => cases keys
        | cons n e =>
          rw [Assoc.keys_cons,Assoc.keys_cons,List.cons.injEq] at keys
          cases each with
          | cons head tail => exact .cons ⟨keys.1,head⟩ (ih keys.2 tail)
    refine .dict_of_members (reordered.filter _) (List.rel_filter (fun m n both => ?_) members)
    dsimp only
    rw [both.1]

end Python.Value
