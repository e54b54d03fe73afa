import ToolLayer.Python.Json

/-! What `json.loads` reads back from what `json.dumps` wrote with its defaults: the
value itself, except that two lone surrogates side by side become one code point. -/
namespace Python
open Kit

namespace Str

/-- The code point two surrogates stand for. -/
def pair (high low : CodePoint) : CodePoint :=
  Fin.ofNat _ (0x10000 + (high.val - 0xD800) * 0x400 + (low.val - 0xDC00))

def paired : Str → Str
  | [] => []
  | [c] => [c]
  | c::d::rest =>
    if c.between 0xD800 0xDBFF && d.between 0xDC00 0xDFFF then pair c d :: paired rest
    else c :: paired (d::rest)

theorem paired_scalar {s : Str} (plain : s.scalar = true) : paired s = s := by
  fun_induction paired s with
  | case1 => rfl
  | case2 c => rfl
  | case3 c d rest met ih =>
    simp only [scalar,List.all_cons,Bool.and_eq_true,Bool.not_eq_true',CodePoint.isSurrogate] at plain
    have low : c.between 0xD800 0xDFFF = true := by
      simp only [CodePoint.between,Bool.and_eq_true,decide_eq_true_eq] at met ⊢
      omega
    rw [low] at plain
    exact absurd plain.1 (by simp)
  | case4 c d rest unmet ih =>
    simp only [scalar,List.all_cons,Bool.and_eq_true] at plain
    rw [ih (by simpa [scalar] using plain.2)]

end Str

namespace Value

mutual
def reload : Value → Value
  | .str s => .str s.paired
  | .list items => .list (reloadList items)
  | .dict members => .dict (reloadMembers [] members)
  | .null => .null
  | .bool b => .bool b
  | .int n => .int n
  | .float x => .float x
  | .other kind repr json => .other kind repr json
def reloadList : List Value → List Value
  | [] => []
  | item::rest => reload item :: reloadList rest
/-- A later member replaces an earlier one whose key reads the same. -/
def reloadMembers (read : Dict) : Dict → Dict
  | [] => read
  | (key,value)::rest => reloadMembers (Dict.set read key.paired (reload value)) rest
end

theorem reloadList_eq_map (items : List Value) : reloadList items = items.map reload := by
  induction items with
  | nil => rfl
  | cons item rest ih => simp [reloadList,ih]

theorem mem_keys_reloadMembers {key : Str} (members read : Dict) :
    key ∈ Assoc.keys (reloadMembers read members) ↔
      key ∈ Assoc.keys read ∨ ∃ written ∈ Assoc.keys members, written.paired = key := by
  induction members generalizing read with
  | nil => simp [reloadMembers]
  | cons m rest ih =>
    obtain ⟨k,value⟩ := m
    have grown : key ∈ Assoc.keys (Dict.set read k.paired (reload value)) ↔
        key ∈ Assoc.keys read ∨ k.paired = key := by
      rw [Dict.set,Assoc.keys_set]
      split
      next present =>
        constructor
        · exact Or.inl
        · rintro (there | rfl)
          · exact there
          · exact present
      next absent => simp [eq_comm]
    rw [reloadMembers,ih,grown,Assoc.keys_cons,List.exists_mem_cons_iff,or_assoc]

theorem reloadMembers_append (members read : Dict)
    (distinct : ((Assoc.keys read) ++ (Assoc.keys members).map Str.paired).Nodup) :
    reloadMembers read members = read ++ members.map (fun m => (m.1.paired,reload m.2)) := by
  induction members generalizing read with
  | nil => simp [reloadMembers]
  | cons m rest ih =>
    obtain ⟨k,value⟩ := m
    rw [Assoc.keys_cons,List.map_cons] at distinct
    have absent : k.paired ∉ Assoc.keys read := by
      intro present
      have apart := (List.nodup_append.mp distinct).2.2 _ present _ List.mem_cons_self
      exact apart rfl
    have appended : Dict.set read k.paired (reload value) = read ++ [(k.paired,reload value)] :=
      Assoc.set_of_absent absent
    rw [reloadMembers,appended,ih]
    · simp
    · simpa [Assoc.keys] using distinct

/-- An object whose keys hold no surrogates keeps its keys. -/
theorem reload_dict {members : Dict} (distinct : (Assoc.keys members).Nodup)
    (plain : (Assoc.keys members).all Str.scalar = true) :
    reload (.dict members) = .dict (members.map (fun m => (m.1,reload m.2))) := by
  have same : (Assoc.keys members).map Str.paired = Assoc.keys members := by
    conv_rhs => rw [← List.map_id (Assoc.keys members)]
    apply List.map_congr_left
    intro key member
    exact Str.paired_scalar (List.all_eq_true.mp plain key member)
  rw [reload,reloadMembers_append members [] (by simpa [same] using distinct),List.nil_append]
  congr 1
  apply List.map_congr_left
  intro m member
  have key := Str.paired_scalar (List.all_eq_true.mp plain m.1 (List.mem_map_of_mem member))
  rw [key]

end Value

end Python
