import ToolLayer.ControlPlane.Stored

/-! The review of an operation as the latest decision on each of its fields. -/
namespace ToolLayer.ControlPlane
open Python Kit Kit.Result OpenApi

section Latest

variable {U A : Type}

/-- The last update that decides, or what there was before all of them. -/
def latest (field : U → Option A) (first : A) (updates : List U) : A := (updates.reverse.findSome? field).getD first

@[simp] theorem latest_nil (field : U → Option A) (first : A) : latest field first [] = first := rfl

theorem latest_concat (field : U → Option A) (first : A) (updates : List U) (u : U) :
    latest field first (updates ++ [u]) = (field u).getD (latest field first updates) := by
  rw [latest,List.reverse_append,List.reverse_singleton,List.singleton_append,List.findSome?_cons]
  cases field u <;> rfl

end Latest

/-- `sorted(roles)`. -/
def sortedTexts (texts : List Str) : List Str := texts.insertionSort (fun a b => Str.le a b = true)

/-- The origin an accepted update records. -/
def ReviewUpdate.origin (u : ReviewUpdate) : Option Str :=
  match u.description with
  | some _ => some (match u.descriptionOrigin with | some (c::rest) => c::rest | _ => Str.lit "human")
  | none => u.descriptionOrigin

namespace OperationReview

/-- The review of an operation after one accepted update of it. -/
def after (r : OperationReview) (u : ReviewUpdate) : OperationReview where
  operationKey := r.operationKey
  selection := (u.selection.map Value.str).getD r.selection
  description := (u.description.map Str.strip).getD r.description
  descriptionOrigin := (u.origin.map Value.str).getD r.descriptionOrigin
  effectClass := (u.effectClass.map Value.str).getD r.effectClass
  requiresConfirmation := u.requiresConfirmation.getD r.requiresConfirmation
  accessMode := (u.accessMode.map Value.str).getD r.accessMode
  allowedRoles := (u.allowedRoles.map (fun roles => (sortedTexts roles).map Value.str)).getD r.allowedRoles

/-- The latest decision on each field, for the updates of the operation among some. -/
def decided (r : OperationReview) (updates : List ReviewUpdate) : OperationReview :=
  let own := updates.filter (fun u => u.operationKey == r.operationKey)
  ⟨r.operationKey,latest (fun u => u.selection.map Value.str) r.selection own,
    latest (fun u => u.description.map Str.strip) r.description own,
    latest (fun u => u.origin.map Value.str) r.descriptionOrigin own,
    latest (fun u => u.effectClass.map Value.str) r.effectClass own,
    latest ReviewUpdate.requiresConfirmation r.requiresConfirmation own,
    latest (fun u => u.accessMode.map Value.str) r.accessMode own,
    latest (fun u => u.allowedRoles.map (fun roles => (sortedTexts roles).map Value.str)) r.allowedRoles own⟩

@[simp] theorem decided_nil (r : OperationReview) : r.decided [] = r := rfl

@[simp] theorem operationKey_decided (r : OperationReview) (updates : List ReviewUpdate) :
    (r.decided updates).operationKey = r.operationKey := rfl

/-- One more update decides for its own operation. -/
theorem decided_concat (r : OperationReview) (updates : List ReviewUpdate) (u : ReviewUpdate) :
    r.decided (updates ++ [u]) =
      if (r.decided updates).operationKey = u.operationKey then (r.decided updates).after u else r.decided updates := by
  rw [operationKey_decided]
  by_cases same : r.operationKey = u.operationKey
  · rw [if_pos same]
    have own : (updates ++ [u]).filter (fun u => u.operationKey == r.operationKey) =
        updates.filter (fun u => u.operationKey == r.operationKey) ++ [u] := by
      rw [List.filter_append,List.filter_cons_of_pos (by simp [same])]
      rfl
    unfold decided
    rw [own]
    simp only [after,latest_concat]
  · rw [if_neg same]
    have own : (updates ++ [u]).filter (fun u => u.operationKey == r.operationKey) =
        updates.filter (fun u => u.operationKey == r.operationKey) := by
      rw [List.filter_append,List.filter_cons_of_neg (by simpa using Ne.symm same),List.filter_nil,List.append_nil]
    unfold decided
    rw [own]

/-- A review made of texts without surrogates, its roles in order. -/
structure Plain (r : OperationReview) : Prop where
  key : r.operationKey.scalar = true
  description : r.description.scalar = true
  exists_texts : ∃ (selection origin effect mode : Str) (roles : List Str), r.selection = .str selection ∧
    r.descriptionOrigin = .str origin ∧ r.effectClass = .str effect ∧ r.accessMode = .str mode ∧
    r.allowedRoles = roles.map .str ∧ selection.scalar = true ∧ origin.scalar = true ∧ effect.scalar = true ∧
    mode.scalar = true ∧ (∀ role ∈ roles, role.scalar = true) ∧ roles.Pairwise (fun a b => Str.le a b = true)

theorem every_texts {roles : List Str} (plain : ∀ role ∈ roles, role.scalar = true) :
    Value.scalar (.list (roles.map .str)) = true := by
  rw [Value.scalar,Value.every_list,List.forall_mem_map]
  exact plain

variable [Unicode]

/-- A plain review is read back from its column as it was written. -/
theorem Plain.fromDict_reload {r : OperationReview} (plain : r.Plain) : fromDict (Value.reload r.toDict) = .ok r := by
  obtain ⟨selection,origin,effect,mode,roles,isSelection,isOrigin,isEffect,isMode,isRoles,s,o,e,m,texts,_⟩ :=
    plain.exists_texts
  have listed := distinct_texts roles
  have text := every_texts texts
  have keys : r.toDict.distinct = true := by
    simp only [toDict,isSelection,isOrigin,isEffect,isMode,isRoles,Value.distinct_dict,Assoc.keys_cons,Assoc.keys_nil,
      List.forall_mem_cons,Value.distinct_str,Value.distinct_bool,listed,true_and]
    exact ⟨by decide,by simp⟩
  have written : r.toDict.scalar = true := by
    simp only [toDict,isSelection,isOrigin,isEffect,isMode,isRoles,Value.scalar,Value.every_dict,List.forall_mem_cons]
    exact ⟨⟨by decide,plain.key⟩,⟨by decide,s⟩,⟨by decide,plain.description⟩,⟨by decide,o⟩,⟨by decide,e⟩,⟨by decide,rfl⟩,
      ⟨by decide,m⟩,⟨by decide,text⟩,by simp⟩
  rw [Value.reload_of_scalar keys written]
  rfl

end OperationReview

/-- A state of plain reviews is read back as it was written. -/
theorem ReviewState.fromDict_reload [Unicode] {state : ReviewState} (plain : ∀ r ∈ state.operations, r.Plain) :
    ReviewState.fromDict (Value.reloadMembers [] state.toDict) = .ok state := by
  have column : Value.reloadMembers [] state.toDict =
      [(Str.lit "operations",.list ((state.operations.map OperationReview.toDict).map Value.reload))] := by
    have whole := @Value.reload_dict state.toDict (by simp [toDict,Assoc.keys]) (by simp [toDict,Assoc.keys]; decide)
    rw [Value.reload] at whole
    rw [Value.dict.inj whole]
    simp [toDict,Value.reload,Value.reloadList_eq_map]
  have each_ : each OperationReview.fromDict ((state.operations.map OperationReview.toDict).map Value.reload) =
      .ok state.operations := by
    rw [each_eq_ok,List.forall₂_map_left_iff,List.forall₂_map_left_iff,List.forall₂_same]
    exact fun r member => (plain r member).fromDict_reload
  rw [column,ReviewState.fromDict]
  simp only [getOr,Assoc.get_cons,if_true,Option.getD_some,tupleOf,ok_bind,each_]
  rfl

section Updating

theorem describe_eq_ok {r out : OperationReview} {u : ReviewUpdate} (done : describe r u = .ok out) :
    out = { r with
      description := (u.description.map Str.strip).getD r.description
      descriptionOrigin := (u.origin.map Value.str).getD r.descriptionOrigin } := by
  unfold describe at done
  unfold ReviewUpdate.origin
  split at done
  next given text =>
    obtain ⟨_,done⟩ := refuse_bind_eq_ok.mp done
    obtain ⟨_,done⟩ := refuse_bind_eq_ok.mp done
    cases done
    rw [text]
    rfl
  next none_ =>
    rw [none_]
    split at done
    next origin given =>
      cases done
      rw [given]
      rfl
    next absent =>
      cases done
      rw [absent]
      rfl

theorem accessPolicyOf_eq_ok {mode : Str} {roles : List Str} {policy : ToolAccessPolicy}
    (built : accessPolicyOf (.str mode) (roles.map .str) = .ok policy) :
    policy.accessMode.text = mode ∧ policy.allowedRoles = sortedTexts roles := by
  unfold accessPolicyOf at built
  split at built
  next found read =>
    cases built
    unfold ToolAccessPolicy.read at read
    rw [Read.members_of_subset (by simp [ToolAccessPolicy.fields])] at read
    simp only [Option.bind_eq_bind,Option.bind_some,Option.bind_eq_some_iff] at read
    obtain ⟨m,literal,texts,tuple,made⟩ := read
    have named : Read.literal AccessMode.text [.isPublic,.restricted] (.str mode) = some m := by
      simpa [Read.field] using literal
    have listed : texts = roles := by
      have found : Read.tuple Read.text (.list (roles.map .str)) = some texts := by simpa [Read.field] using tuple
      rw [Read.tuple_texts] at found
      exact (Option.some.inj found).symm
    subst listed
    obtain ⟨_,rfl⟩ := validated_eq_ok.mp (toOption_eq_some.mp made)
    have spelled := List.find?_some named
    exact ⟨by simpa using spelled,rfl⟩
  next => cases built

/-- The access part of an update: what it gives, checked, and otherwise what there was. -/
theorem regulate_eq_ok {existing r out : OperationReview} {u : ReviewUpdate} (plain : existing.Plain)
    (mode : r.accessMode = existing.accessMode) (roles : r.allowedRoles = existing.allowedRoles)
    (done : regulate existing r u = .ok out) : out = { r with
      accessMode := (u.accessMode.map Value.str).getD r.accessMode
      allowedRoles := (u.allowedRoles.map (fun roles => (sortedTexts roles).map Value.str)).getD r.allowedRoles } := by
  obtain ⟨_,_,_,oldMode,oldRoles,_,_,_,isMode,isRoles,_,_,_,_,_,ordered⟩ := plain.exists_texts
  have kept : sortedTexts oldRoles = oldRoles := List.Pairwise.insertionSort_eq ordered
  unfold regulate at done
  split at done
  next =>
    have texts : (u.accessMode.map Value.str).getD existing.accessMode = .str (u.accessMode.getD oldMode) ∧
        (u.allowedRoles.map (List.map Value.str)).getD existing.allowedRoles = (u.allowedRoles.getD oldRoles).map .str := by
      rw [isMode,isRoles]
      cases u.accessMode <;> cases u.allowedRoles <;> exact ⟨rfl,rfl⟩
    rw [texts.1,texts.2] at done
    dsimp only at done
    split at done
    next policy built =>
      cases done
      obtain ⟨spelled,listed⟩ := accessPolicyOf_eq_ok built
      rw [spelled,listed,mode,roles,isMode,isRoles]
      cases u.accessMode <;> cases u.allowedRoles <;> simp [kept]
    next => cases done
  next untouched =>
    cases done
    simp only [Bool.or_eq_true,not_or,Bool.not_eq_true,Option.isSome_eq_false_iff,Option.isNone_iff_eq_none] at untouched
    rw [untouched.1,untouched.2]
    rfl

/-- An accepted update decides for its operation and leaves the others. -/
theorem applyUpdate_eq_ok {state next : ReviewState} {u : ReviewUpdate}
    (distinct : (state.operations.map OperationReview.operationKey).Nodup) (plain : ∀ r ∈ state.operations, r.Plain)
    (done : applyUpdate state u = .ok next) :
    next.operations = state.operations.map (fun r => if r.operationKey = u.operationKey then r.after u else r) := by
  unfold applyUpdate at done
  split at done
  next => cases done
  next existing found =>
    obtain ⟨_,done⟩ := refuse_bind_eq_ok.mp done
    obtain ⟨described,describes,done⟩ := bind_eq_ok.mp done
    obtain ⟨_,done⟩ := refuse_bind_eq_ok.mp done
    obtain ⟨updated,regulates,done⟩ := bind_eq_ok.mp done
    cases done
    have shape := describe_eq_ok describes
    have member : existing ∈ state.operations := List.mem_of_find?_eq_some found
    have key : existing.operationKey = u.operationKey := by simpa using List.find?_some found
    have outcome : updated = existing.after u := by
      rw [regulate_eq_ok (plain existing member) (by rw [shape]) (by rw [shape]) regulates,shape]
      rfl
    apply List.map_congr_left
    intro r inside
    by_cases same : r.operationKey = u.operationKey
    · rw [if_pos same,if_pos same,outcome,List.inj_on_of_nodup_map distinct inside member (same.trans key.symm)]
    · rw [if_neg same,if_neg same]

theorem scalar_strip {s : Str} (plain : s.scalar = true) : s.strip.scalar = true := by
  rw [Str.scalar,List.all_eq_true] at plain ⊢
  intro c member
  refine plain c ?_
  have inner := List.mem_reverse.mp ((List.dropWhile_sublist _).mem (List.mem_reverse.mp member))
  exact (List.dropWhile_sublist _).mem inner

theorem scalar_of_contains {texts : List Str} {s : Str} (plain : ∀ t ∈ texts, t.scalar = true)
    (member : texts.contains s = true) : s.scalar = true := plain s (by simpa using member)

theorem mem_sortedTexts {texts : List Str} {s : Str} : s ∈ sortedTexts texts ↔ s ∈ texts :=
  (List.perm_insertionSort _ _).mem_iff

theorem pairwise_sortedTexts (texts : List Str) : (sortedTexts texts).Pairwise (fun a b => Str.le a b = true) :=
  Value.pairwise_insertionSort texts

/-- What the route admits keeps a review plain. -/
theorem OperationReview.Plain.after {r : OperationReview} {u : ReviewUpdate} (plain : r.Plain) (admitted : u.Accepts) :
    (r.after u).Plain := by
  obtain ⟨_,selections,descriptions,origins,effects,modes,rolesOk⟩ := admitted
  obtain ⟨selection,origin,effect,mode,roles,isSelection,isOrigin,isEffect,isMode,isRoles,s,o,e,m,texts,ordered⟩ :=
    plain.exists_texts
  have newOrigin : ∀ t, u.origin = some t → t.scalar = true := by
    intro t given
    have known : ∀ t, u.descriptionOrigin = some t → t.scalar = true := by
      intro t there
      rw [there] at origins
      exact scalar_of_contains (by decide) origins
    unfold ReviewUpdate.origin at given
    split at given
    next =>
      cases given
      split
      next c rest there => exact known _ there
      next => decide
    next => exact known t given
  refine ⟨plain.key,?_,u.selection.getD selection,u.origin.getD origin,u.effectClass.getD effect,u.accessMode.getD mode,
    (u.allowedRoles.map sortedTexts).getD roles,?_,?_,?_,?_,?_,?_,?_,?_,?_,?_,?_⟩
  · cases given : u.description with
    | none => simpa [OperationReview.after,given] using plain.description
    | some text =>
      rw [given] at descriptions
      simpa [OperationReview.after,given] using scalar_strip (scalar_of_boundedText descriptions)
  · rw [OperationReview.after,isSelection]
    cases u.selection <;> rfl
  · rw [OperationReview.after,isOrigin]
    cases u.origin <;> rfl
  · rw [OperationReview.after,isEffect]
    cases u.effectClass <;> rfl
  · rw [OperationReview.after,isMode]
    cases u.accessMode <;> rfl
  · rw [OperationReview.after,isRoles]
    cases u.allowedRoles <;> rfl
  · cases given : u.selection with
    | none => exact s
    | some text =>
      rw [given] at selections
      exact scalar_of_contains (by decide) selections
  · cases given : u.origin with
    | none => exact o
    | some text => exact newOrigin text given
  · cases given : u.effectClass with
    | none => exact e
    | some text =>
      rw [given] at effects
      exact scalar_of_contains (by decide) effects
  · cases given : u.accessMode with
    | none => exact m
    | some text =>
      rw [given] at modes
      exact scalar_of_contains (by decide) modes
  · cases given : u.allowedRoles with
    | none => exact texts
    | some names =>
      rw [given] at rolesOk
      have keys : ∀ role ∈ names, resourceKey role = true := by simpa using (Bool.and_eq_true_iff.mp rolesOk).2
      intro role member
      have key := keys role (mem_sortedTexts.mp member)
      simp only [resourceKey,Bool.and_eq_true] at key
      exact scalar_of_boundedText key.1
  · cases u.allowedRoles with
    | none => exact ordered
    | some names => exact pairwise_sortedTexts names

end Updating

end ToolLayer.ControlPlane
