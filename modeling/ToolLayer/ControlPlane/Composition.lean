import ToolLayer.Contracts.Readings
import ToolLayer.ControlPlane.Proposals

/-! How accepted updates compose: each one decides for one entry, apart from all others, and
a batch of them is stored whole or not at all. -/
namespace ToolLayer.ControlPlane
open Python Kit Kit.Result OpenApi

section Entries

/-- What the contract model accepts, and the role list it makes of it. -/
theorem accessPolicyOf_eq_ok_iff {mode : Value} {roles : List Value} {policy : ToolAccessPolicy} :
    accessPolicyOf mode roles = .ok policy ↔
      mode = .str policy.accessMode.text ∧ ∃ texts, roles = texts.map .str ∧ policy.allowedRoles = sortedTexts texts := by
  have built : accessPolicyOf mode roles = .ok policy ↔
      ToolAccessPolicy.read (.dict [("access_mode",mode),("allowed_roles",.list roles)]) = some policy := by
    unfold accessPolicyOf
    split
    next found read => rw [read,Except.ok.injEq,Option.some.injEq]
    next refused => simp [refused]
  rw [built,ToolAccessPolicy.read_iff]
  constructor
  · rintro ⟨_,texts,⟨⟩,_,spelled,listed,sorted⟩
    cases spelled
    cases listed
    exact ⟨rfl,texts,rfl,sorted.symm⟩
  · rintro ⟨rfl,texts,rfl,sorted⟩
    exact ⟨_,texts,rfl,by simp [ToolAccessPolicy.fields],rfl,rfl,sorted.symm⟩

/-- The access an update asks for, what it leaves out taken from the entry. -/
def ReviewUpdate.access (u : ReviewUpdate) (r : OperationReview) : Except PyExc ToolAccessPolicy :=
  accessPolicyOf ((u.accessMode.map Value.str).getD r.accessMode) ((u.allowedRoles.map (List.map Value.str)).getD r.allowedRoles)

def ReviewUpdate.setsAccess (u : ReviewUpdate) : Bool := u.accessMode.isSome || u.allowedRoles.isSome

/-- What an update must give to be accepted, its access apart. -/
structure ReviewUpdate.Admissible (u : ReviewUpdate) : Prop where
  selection : u.selection.any (fun s => !([Str.lit "included",Str.lit "excluded"].contains s)) = false
  effect : u.effectClass.any (fun s => !(EffectClass.all.map EffectClass.text).contains s) = false
  description : ∀ given, u.description = some given → 1 ≤ given.strip.length ∧ given.strip.length ≤ maxDescription

/-- The entry `r` after the update `u`, on which it is accepted. -/
structure RevisedBy (u : ReviewUpdate) (r out : OperationReview) : Prop where
  admissible : u.Admissible
  key : out.operationKey = r.operationKey
  selection : out.selection = (u.selection.map Value.str).getD r.selection
  description : out.description = (u.description.map Str.strip).getD r.description
  origin : out.descriptionOrigin = (u.origin.map Value.str).getD r.descriptionOrigin
  effect : out.effectClass = (u.effectClass.map Value.str).getD r.effectClass
  confirmation : out.requiresConfirmation = u.requiresConfirmation.getD r.requiresConfirmation
  untouched : u.setsAccess = false → out.accessMode = r.accessMode ∧ out.allowedRoles = r.allowedRoles
  regulated : u.setsAccess = true → ∃ policy, u.access r = .ok policy ∧ out.accessMode = .str policy.accessMode.text ∧
    out.allowedRoles = policy.allowedRoles.map .str

theorem describe_eq_ok_iff {r out : OperationReview} {u : ReviewUpdate} : describe r u = .ok out ↔
    (∀ given, u.description = some given → 1 ≤ given.strip.length ∧ given.strip.length ≤ maxDescription) ∧
    out = { r with
      description := (u.description.map Str.strip).getD r.description
      descriptionOrigin := (u.origin.map Value.str).getD r.descriptionOrigin } := by
  refine ⟨fun done => ⟨fun given text => ?_,describe_eq_ok done⟩,?_⟩
  · unfold describe at done
    rw [text] at done
    obtain ⟨filled,done⟩ := refuse_bind_eq_ok.mp done
    obtain ⟨short,_⟩ := refuse_bind_eq_ok.mp done
    rw [List.isEmpty_eq_false_iff] at filled
    exact ⟨List.length_pos_iff.mpr filled,by simpa using short⟩
  · rintro ⟨bounded,rfl⟩
    unfold describe ReviewUpdate.origin
    cases text : u.description with
    | none =>
      cases u.descriptionOrigin <;> rfl
    | some given =>
      obtain ⟨filled,short⟩ := bounded given text
      refine refuse_bind_eq_ok.mpr ⟨?_,refuse_bind_eq_ok.mpr ⟨by simpa using short,rfl⟩⟩
      rw [List.isEmpty_eq_false_iff]
      exact List.length_pos_iff.mp filled

/-- The entry an accepted update of `r` leaves. -/
def revisedEntry (r : OperationReview) (u : ReviewUpdate) : Except PyExc OperationReview := do
  refuse (u.selection.any (fun s => !([Str.lit "included",Str.lit "excluded"].contains s)))
    (invalidRequest "selection must be 'included' or 'excluded'" "/selection")
  let described ← describe { r with selection := (u.selection.map Value.str).getD r.selection } u
  refuse (u.effectClass.any (fun s => !(EffectClass.all.map EffectClass.text).contains s))
    (invalidRequest "effect_class is not a supported value" "/effect_class")
  regulate r { described with
    effectClass := (u.effectClass.map Value.str).getD described.effectClass
    requiresConfirmation := u.requiresConfirmation.getD described.requiresConfirmation } u

theorem revisedEntry_eq_ok {r out : OperationReview} {u : ReviewUpdate} :
    revisedEntry r u = .ok out ↔ RevisedBy u r out := by
  unfold revisedEntry
  refine ⟨fun done => ?_,fun revised => ?_⟩
  · obtain ⟨selection,done⟩ := refuse_bind_eq_ok.mp done
    obtain ⟨described,describes,done⟩ := bind_eq_ok.mp done
    obtain ⟨effect,done⟩ := refuse_bind_eq_ok.mp done
    obtain ⟨bounded,rfl⟩ := describe_eq_ok_iff.mp describes
    unfold regulate at done
    split at done
    next touched =>
      dsimp only at done
      split at done
      next policy built =>
        cases done
        exact ⟨⟨selection,effect,bounded⟩,rfl,rfl,rfl,rfl,rfl,rfl,fun not => absurd (touched.symm.trans not) (by decide),
          fun _ => ⟨policy,built,rfl,rfl⟩⟩
      next => cases done
    next untouched =>
      cases done
      exact ⟨⟨selection,effect,bounded⟩,rfl,rfl,rfl,rfl,rfl,rfl,fun _ => ⟨rfl,rfl⟩,fun touched => absurd touched untouched⟩
  · obtain ⟨⟨selection,effect,bounded⟩,key,s,d,o,e,c,untouched,regulated⟩ := revised
    refine refuse_bind_eq_ok.mpr ⟨selection,bind_eq_ok.mpr ⟨_,describe_eq_ok_iff.mpr ⟨bounded,rfl⟩,
      refuse_bind_eq_ok.mpr ⟨effect,?_⟩⟩⟩
    unfold regulate
    split
    next touched =>
      obtain ⟨policy,built,mode,roles⟩ := regulated touched
      unfold ReviewUpdate.access at built
      dsimp only
      rw [built]
      cases out
      simp_all
    next not =>
      obtain ⟨mode,roles⟩ := untouched (by simpa [ReviewUpdate.setsAccess] using not)
      cases out
      simp_all

/-- An update decides nothing new where it was accepted. -/
theorem RevisedBy.again {u : ReviewUpdate} {r out : OperationReview} (revised : RevisedBy u r out) : RevisedBy u out out := by
  have kept : ∀ {A : Type} (given : Option A) (first now : A), now = given.getD first → now = given.getD now := by
    intro A given first now same
    cases given with
    | none => rfl
    | some a => exact same
  refine ⟨revised.admissible,rfl,kept _ _ _ revised.selection,kept _ _ _ revised.description,kept _ _ _ revised.origin,
    kept _ _ _ revised.effect,kept _ _ _ revised.confirmation,fun _ => ⟨rfl,rfl⟩,fun touched => ?_⟩
  obtain ⟨policy,built,mode,roles⟩ := revised.regulated touched
  obtain ⟨spelled,texts,listed,sorted⟩ := accessPolicyOf_eq_ok_iff.mp built
  refine ⟨policy,accessPolicyOf_eq_ok_iff.mpr ⟨?_,?_⟩,mode,roles⟩
  · rw [mode]
    cases given : u.accessMode with
    | none => rfl
    | some m =>
      rw [given] at spelled
      exact spelled
  · rw [roles]
    cases given : u.allowedRoles with
    | none =>
      -- the stored list is in order, so sorting it again changes nothing
      have ordered : sortedTexts policy.allowedRoles = policy.allowedRoles :=
        List.Pairwise.insertionSort_eq policy.accepted.2.2.2
      exact ⟨policy.allowedRoles,rfl,ordered.symm⟩
    | some given_ =>
      rw [given] at listed
      exact ⟨texts,listed,sorted⟩

end Entries

section States

/-- The state with another entry in the place of one. -/
def ReviewState.put (state : ReviewState) (key : Str) (r : OperationReview) : ReviewState :=
  ⟨state.operations.map (fun entry => if entry.operationKey = key then r else entry)⟩

theorem ReviewState.key_of_get {state : ReviewState} {key : Str} {r : OperationReview} (found : state.get key = some r) :
    r.operationKey = key := by simpa using List.find?_some found

theorem ReviewState.get_put {state : ReviewState} {key other : Str} {r : OperationReview} (named : r.operationKey = key) :
    (state.put key r).get other = if other = key then (state.get key).map (fun _ => r) else state.get other := by
  obtain ⟨operations⟩ := state
  unfold get put
  induction operations with
  | nil => simp
  | cons entry rest ih =>
    rw [List.map_cons]
    by_cases here : entry.operationKey = key
    · rw [if_pos here]
      by_cases same : other = key
      · rw [if_pos same,List.find?_cons_of_pos (by simpa [named] using same.symm),List.find?_cons_of_pos (by simpa using here)]
        rfl
      · have apart : (entry.operationKey == other) = false := by simpa [here] using Ne.symm same
        rw [if_neg same] at ih ⊢
        rw [List.find?_cons_of_neg (by simpa [named] using Ne.symm same),ih,List.find?_cons_of_neg (by simp [apart])]
    · rw [if_neg here]
      by_cases same : other = key
      · subst same
        rw [if_pos rfl] at ih ⊢
        rw [List.find?_cons_of_neg (by simpa using here),ih,List.find?_cons_of_neg (by simpa using here)]
      · rw [if_neg same] at ih ⊢
        cases found : entry.operationKey == other with
        | true => rw [List.find?_cons_of_pos (by simpa using found),List.find?_cons_of_pos (by simpa using found)]
        | false => rw [List.find?_cons_of_neg (by simp [found]),ih,List.find?_cons_of_neg (by simp [found])]

theorem ReviewState.put_put (state : ReviewState) (key : Str) {first second : OperationReview}
    (named : first.operationKey = key) : (state.put key first).put key second = state.put key second := by
  unfold put
  rw [List.map_map]
  congr 1
  refine List.map_congr_left (fun entry _ => ?_)
  by_cases here : entry.operationKey = key <;> simp [here,named]

theorem ReviewState.put_comm (state : ReviewState) {key other : Str} {r s : OperationReview} (apart : key ≠ other)
    (named : r.operationKey = key) (named' : s.operationKey = other) :
    (state.put key r).put other s = (state.put other s).put key r := by
  unfold put
  rw [List.map_map,List.map_map]
  congr 1
  refine List.map_congr_left (fun entry _ => ?_)
  by_cases here : entry.operationKey = key
  · have there : entry.operationKey ≠ other := here ▸ apart
    simp [here,apart,named]
  · by_cases there : entry.operationKey = other
    · simp [there,Ne.symm apart,named']
    · simp [here,there]

/-- An update is accepted when the entry it names can be revised, and replaces that entry. -/
theorem applyUpdate_eq_ok_iff {state next : ReviewState} {u : ReviewUpdate} : applyUpdate state u = .ok next ↔
    ∃ r out, state.get u.operationKey = some r ∧ RevisedBy u r out ∧ next = state.put u.operationKey out := by
  cases found : state.get u.operationKey with
  | none =>
    rw [applyUpdate,found]
    simp
  | some r =>
    have shape : applyUpdate state u = revisedEntry r u >>= fun out => .ok (state.put u.operationKey out) := by
      unfold applyUpdate revisedEntry
      rw [found]
      simp only [bind_assoc]
      rfl
    rw [shape]
    simp only [bind_eq_ok,revisedEntry_eq_ok,Option.some.injEq,Except.ok.injEq,exists_and_left,exists_eq_left']
    constructor
    · rintro ⟨out,revised,same⟩
      exact ⟨out,revised,same.symm⟩
    · rintro ⟨out,revised,same⟩
      exact ⟨out,revised,same.symm⟩

/-- Updates of different entries do not meet. -/
theorem applyUpdate_comm {state out : ReviewState} {u v : ReviewUpdate} (apart : u.operationKey ≠ v.operationKey)
    (done : (applyUpdate state u >>= fun between => applyUpdate between v) = .ok out) :
    (applyUpdate state v >>= fun between => applyUpdate between u) = .ok out := by
  obtain ⟨between,first,second⟩ := bind_eq_ok.mp done
  obtain ⟨r,r',found,revised,rfl⟩ := applyUpdate_eq_ok_iff.mp first
  obtain ⟨s,s',found',revised',rfl⟩ := applyUpdate_eq_ok_iff.mp second
  have key : r'.operationKey = u.operationKey := revised.key.trans (ReviewState.key_of_get found)
  have key' : s'.operationKey = v.operationKey := revised'.key.trans (ReviewState.key_of_get found')
  rw [ReviewState.get_put key,if_neg (Ne.symm apart)] at found'
  have there : (state.put v.operationKey s').get u.operationKey = some r := by
    rw [ReviewState.get_put key',if_neg apart,found]
  exact bind_eq_ok.mpr ⟨_,applyUpdate_eq_ok_iff.mpr ⟨s,s',found',revised',rfl⟩,
    applyUpdate_eq_ok_iff.mpr ⟨r,r',there,revised,state.put_comm apart key key'⟩⟩

theorem applyUpdate_again {state next : ReviewState} {u : ReviewUpdate} (done : applyUpdate state u = .ok next) :
    applyUpdate next u = .ok next := by
  obtain ⟨r,out,found,revised,rfl⟩ := applyUpdate_eq_ok_iff.mp done
  have key : out.operationKey = u.operationKey := revised.key.trans (ReviewState.key_of_get found)
  refine applyUpdate_eq_ok_iff.mpr ⟨out,out,?_,revised.again,(state.put_put _ key).symm⟩
  rw [ReviewState.get_put key,if_pos rfl,found]
  rfl

/-- What an update of `u` leaves of the entry `r`: all of an entry it does not name, and otherwise
each field it does not give. -/
structure Keeps (u : ReviewUpdate) (r out : OperationReview) : Prop where
  key : out.operationKey = r.operationKey
  other : r.operationKey ≠ u.operationKey → out = r
  selection : u.selection = none → out.selection = r.selection
  description : u.description = none → out.description = r.description
  origin : u.description = none → u.descriptionOrigin = none → out.descriptionOrigin = r.descriptionOrigin
  effect : u.effectClass = none → out.effectClass = r.effectClass
  confirmation : u.requiresConfirmation = none → out.requiresConfirmation = r.requiresConfirmation
  mode : u.accessMode = none → out.accessMode = r.accessMode
  roles : u.allowedRoles = none → out.allowedRoles = r.allowedRoles ∨
    u.accessMode.isSome ∧ ∃ texts, r.allowedRoles = texts.map .str ∧ out.allowedRoles = (sortedTexts texts).map .str

theorem Keeps.refl {u : ReviewUpdate} {r : OperationReview} : Keeps u r r :=
  ⟨rfl,fun _ => rfl,fun _ => rfl,fun _ => rfl,fun _ _ => rfl,fun _ => rfl,fun _ => rfl,fun _ => rfl,fun _ => Or.inl rfl⟩

theorem RevisedBy.keeps {u : ReviewUpdate} {r out : OperationReview} (revised : RevisedBy u r out)
    (named : r.operationKey = u.operationKey) : Keeps u r out := by
  have regulated := revised.regulated
  refine ⟨revised.key,fun other => absurd named other,?_,?_,?_,?_,?_,?_,?_⟩
  · intro none_
    rw [revised.selection,none_]
    rfl
  · intro none_
    rw [revised.description,none_]
    rfl
  · intro none_ origin
    rw [revised.origin,ReviewUpdate.origin,none_,origin]
    rfl
  · intro none_
    rw [revised.effect,none_]
    rfl
  · intro none_
    rw [revised.confirmation,none_]
    rfl
  · intro none_
    cases set_ : u.setsAccess with
    | false => exact (revised.untouched set_).1
    | true =>
      obtain ⟨policy,built,mode,_⟩ := revised.regulated set_
      rw [mode,← (accessPolicyOf_eq_ok_iff.mp built).1,none_]
      rfl
  · intro none_
    cases set_ : u.setsAccess with
    | false => exact Or.inl (revised.untouched set_).2
    | true =>
      obtain ⟨policy,built,_,roles⟩ := revised.regulated set_
      obtain ⟨_,texts,listed,sorted⟩ := accessPolicyOf_eq_ok_iff.mp built
      rw [none_] at listed
      refine Or.inr ⟨by simpa [ReviewUpdate.setsAccess,none_] using set_,texts,listed,?_⟩
      rw [roles,sorted]

/-- Only the entry an update names changes, in its place. -/
theorem applyUpdate_keeps {state next : ReviewState} {u : ReviewUpdate}
    (distinct : (state.operations.map OperationReview.operationKey).Nodup) (done : applyUpdate state u = .ok next) :
    List.Forall₂ (Keeps u) state.operations next.operations := by
  obtain ⟨r,out,found,revised,rfl⟩ := applyUpdate_eq_ok_iff.mp done
  have named := ReviewState.key_of_get found
  rw [ReviewState.put,List.forall₂_map_right_iff,List.forall₂_same]
  intro entry member
  split
  next here =>
    rw [List.inj_on_of_nodup_map distinct member (List.mem_of_find?_eq_some found) (here.trans named.symm)]
    exact revised.keeps named
  next => exact Keeps.refl

end States

section Reached

/-- An entry the published document can hold: its text within bounds, its access as the contract
model spells it. -/
structure OperationReview.Sound (r : OperationReview) : Prop where
  description : 1 ≤ r.description.length ∧ r.description.length ≤ maxDescription
  exists_policy : ∃ policy, accessPolicyOf r.accessMode r.allowedRoles = .ok policy ∧
    r.allowedRoles = policy.allowedRoles.map .str

theorem RevisedBy.sound {u : ReviewUpdate} {r out : OperationReview} (sound : r.Sound) (revised : RevisedBy u r out) :
    out.Sound := by
  refine ⟨?_,?_⟩
  · rw [revised.description]
    cases given : u.description with
    | none => exact sound.description
    | some text => exact revised.admissible.description text given
  · cases set_ : u.setsAccess with
    | false =>
      obtain ⟨mode,roles⟩ := revised.untouched set_
      rw [mode,roles]
      exact sound.exists_policy
    | true =>
      obtain ⟨policy,_,mode,roles⟩ := revised.regulated set_
      have ordered : sortedTexts policy.allowedRoles = policy.allowedRoles :=
        List.Pairwise.insertionSort_eq policy.accepted.2.2.2
      exact ⟨policy,accessPolicyOf_eq_ok_iff.mpr ⟨mode,_,roles,ordered.symm⟩,roles⟩

theorem applyUpdate_sound {state next : ReviewState} {u : ReviewUpdate} (sound : ∀ r ∈ state.operations, r.Sound)
    (done : applyUpdate state u = .ok next) : ∀ r ∈ next.operations, r.Sound := by
  obtain ⟨r,out,found,revised,rfl⟩ := applyUpdate_eq_ok_iff.mp done
  rw [ReviewState.put,List.forall_mem_map]
  intro entry member
  split
  next => exact revised.sound (sound r (List.mem_of_find?_eq_some found))
  next => exact sound entry member

variable [Pydantic] [Unicode]

omit [Unicode] in
theorem Proposal.sound_review (p : Proposal) : p.review.Sound := by
  obtain ⟨_,_,described,_⟩ := p.tool.accepted
  simp only [boundedText,Bool.and_eq_true,decide_eq_true_eq] at described
  have ordered : sortedTexts p.tool.policy.access.allowedRoles = p.tool.policy.access.allowedRoles :=
    List.Pairwise.insertionSort_eq p.tool.policy.access.accepted.2.2.2
  exact ⟨⟨described.1.2,described.2⟩,p.tool.policy.access,accessPolicyOf_eq_ok_iff.mpr ⟨rfl,_,rfl,ordered.symm⟩,rfl⟩

/-- The operations of a serialized analysis read back as the tools they were made of. -/
theorem exists_written {operations : List AnalyzedOperation} {values : List Value}
    (serialized : List.Forall₂ (fun o v => serializeOperation o = .ok v) operations values) :
    ∃ found proposals, each analyzedEntry values = .ok found ∧ found.filterMap id = List.map Proposal.written proposals := by
  induction serialized with
  | nil => exact ⟨[],[],rfl,rfl⟩
  | @cons o v operations values one _ ih =>
    obtain ⟨found,proposals,read,tools⟩ := ih
    obtain ⟨dumped,dump,rfl⟩ := serializeOperation_eq_ok one
    cases made : o.tool with
    | none =>
      rw [made] at dump
      cases dump
      exact ⟨none::found,proposals,each_cons_eq_ok.mpr ⟨_,_,rfl,read,rfl⟩,tools⟩
    | some tool =>
      rw [made] at dump
      obtain ⟨schema,_,rfl⟩ := ToolDefinition.dump_eq_ok.mp dump
      exact ⟨_,⟨o.key,tool,schema⟩::proposals,each_cons_eq_ok.mpr ⟨_,_,analyzedEntry_written o _,read,rfl⟩,
        congrArg (List.cons _) tools⟩

theorem buildInitialReview_sound {result : AnalysisResult} {serialized : Dict} {initial : ReviewState}
    (written : serializeAnalysis result = .ok serialized) (built : buildInitialReview serialized = .ok initial) :
    ∀ r ∈ initial.operations, r.Sound := by
  obtain ⟨values,serializes,listed,_⟩ := serializeAnalysis_eq_ok written
  obtain ⟨found,proposals,read,tools⟩ := exists_written (each_eq_ok.mp serializes)
  have each_ : each initialEntry (proposals.map Proposal.written) = .ok (proposals.map Proposal.review) := by
    rw [each_eq_ok,List.forall₂_map_left_iff,List.forall₂_map_right_iff,List.forall₂_same]
    exact fun p _ => initialEntry_written p
  rw [buildInitialReview,analyzedOperations_of_list listed read,tools,ok_bind,each_] at built
  cases built
  exact List.forall_mem_map.mpr (fun p _ => p.sound_review)

end Reached

section Batches

variable [Unicode]

/-- The review `update_review` assigns to the draft, from all of the updates. -/
def revisedReview (draft : ConnectorDraft) (u : DraftUpdate) : Except PyExc Dict := do
  refuse (decide (u.expectedRevision ≠ draft.revision))
    (revisionConflict "the draft changed since it was read; reload it and reapply the change")
  let state ← ReviewState.fromDict draft.review
  let state ← loop applyUpdate state u.updates
  return state.toDict

/-- The draft object where `update_review` is through with it, and what it raised. -/
def draftInMemory (versions : List Str) (draft : ConnectorDraft) (u : DraftUpdate) : ConnectorDraft × Option PyExc :=
  match revisedReview draft u with
  | .error e => (draft,some e)
  | .ok review =>
    let assigned := { draft with review := review }
    match revisedVersion versions draft.proposedVersion u.proposedVersion with
    | .error e => (assigned,some e)
    | .ok version => ({ assigned with
        proposedVersion := version
        baseUrl := match u.baseUrl with | none => draft.baseUrl | some s => some s
        authProfileRef := match u.authProfileRef with | none => draft.authProfileRef | some s => nonEmpty s
        revision := draft.revision + 1 },none)

theorem revisedDraft_eq (versions : List Str) (draft : ConnectorDraft) (u : DraftUpdate) :
    revisedDraft versions draft u = match draftInMemory versions draft u with
      | (revised,none) => .ok revised
      | (_,some e) => .error e := by
  have split_ : revisedDraft versions draft u = (revisedReview draft u >>= fun review =>
      revisedVersion versions draft.proposedVersion u.proposedVersion >>= fun version => pure { draft with
        review := review
        proposedVersion := version
        baseUrl := match u.baseUrl with | none => draft.baseUrl | some s => some s
        authProfileRef := match u.authProfileRef with | none => draft.authProfileRef | some s => nonEmpty s
        revision := draft.revision + 1 }) := by
    unfold revisedDraft revisedReview
    simp only [bind_assoc]
    rfl
  rw [split_,draftInMemory]
  cases revisedReview draft u with
  | error e => rfl
  | ok review => cases revisedVersion versions draft.proposedVersion u.proposedVersion <;> rfl

theorem revisedReview_eq_ok {draft : ConnectorDraft} {u : DraftUpdate} {review : Dict}
    (done : revisedReview draft u = .ok review) : ∃ before after, ReviewState.fromDict draft.review = .ok before ∧
      loop applyUpdate before u.updates = .ok after ∧ review = after.toDict := by
  unfold revisedReview at done
  obtain ⟨_,done⟩ := refuse_bind_eq_ok.mp done
  obtain ⟨before,read,done⟩ := bind_eq_ok.mp done
  obtain ⟨after,applied,done⟩ := bind_eq_ok.mp done
  cases done
  exact ⟨before,after,read,applied,rfl⟩

/-- The draft object holds the review it had, and the error is raised, or the review all updates give. -/
theorem draftInMemory_whole (versions : List Str) (draft : ConnectorDraft) (u : DraftUpdate) :
    (∃ e, draftInMemory versions draft u = (draft,some e)) ∨
    ∃ before after, ReviewState.fromDict draft.review = .ok before ∧ loop applyUpdate before u.updates = .ok after ∧
      (draftInMemory versions draft u).1.review = after.toDict := by
  unfold draftInMemory
  cases built : revisedReview draft u with
  | error e => exact Or.inl ⟨e,rfl⟩
  | ok review =>
    obtain ⟨before,after,read,applied,rfl⟩ := revisedReview_eq_ok built
    refine Or.inr ⟨before,after,read,applied,?_⟩
    cases revisedVersion versions draft.proposedVersion u.proposedVersion <;> rfl

end Batches

/-- Updates of different entries commute and repeat without effect, each keeps what it does not
give, what they reach can be published, and a batch of them is assigned whole or not at all. -/
theorem updates_compose [Pydantic] [Unicode] :
    (∀ (state : ReviewState) (u v : ReviewUpdate), u.operationKey ≠ v.operationKey → ∀ out,
      (applyUpdate state u >>= fun between => applyUpdate between v) = .ok out ↔
        (applyUpdate state v >>= fun between => applyUpdate between u) = .ok out) ∧
    (∀ (state : ReviewState) (u : ReviewUpdate) (next : ReviewState), applyUpdate state u = .ok next →
      applyUpdate next u = .ok next) ∧
    (∀ (state : ReviewState) (u : ReviewUpdate) (next : ReviewState),
      (state.operations.map OperationReview.operationKey).Nodup → applyUpdate state u = .ok next →
        List.Forall₂ (Keeps u) state.operations next.operations) ∧
    (∀ (result : AnalysisResult) (serialized : Dict) (initial : ReviewState) (updates : List ReviewUpdate)
      (reached : ReviewState), serializeAnalysis result = .ok serialized → buildInitialReview serialized = .ok initial →
        loop applyUpdate initial updates = .ok reached → ∀ r ∈ reached.operations, r.Sound) ∧
    ∀ (versions : List Str) (draft : ConnectorDraft) (u : DraftUpdate),
      (revisedDraft versions draft u = match draftInMemory versions draft u with
        | (revised,none) => .ok revised
        | (_,some e) => .error e) ∧
      ((∃ e, draftInMemory versions draft u = (draft,some e)) ∨
      ∃ before after, ReviewState.fromDict draft.review = .ok before ∧ loop applyUpdate before u.updates = .ok after ∧
        (draftInMemory versions draft u).1.review = after.toDict) := by
  refine ⟨fun state u v apart out => ?_,fun state u next => applyUpdate_again,
    fun state u next distinct done => applyUpdate_keeps distinct done,?_,
    fun versions draft u => ⟨revisedDraft_eq versions draft u,draftInMemory_whole versions draft u⟩⟩
  · exact ⟨applyUpdate_comm apart,applyUpdate_comm (Ne.symm apart)⟩
  · intro result serialized initial updates reached written built run
    exact loop_keeps (fun state : ReviewState => ∀ r ∈ state.operations, r.Sound)
      (fun _ _ _ _ sound done => applyUpdate_sound sound done) (buildInitialReview_sound written built) run

section Unsorted

/-- An entry whose roles were stored out of order. -/
def unsortedEntry : OperationReview :=
  ⟨"get /a",.str "included",[CodePoint.ofChar 'a'],.str "source",.str "read",false,.str "restricted",[.str "b",.str "a"]⟩

/-- An update of the access mode alone puts the stored roles in order. -/
theorem unsorted_roles_changed : ∃ (state next : ReviewState) (u : ReviewUpdate),
    (state.operations.map OperationReview.operationKey).Nodup ∧ u.allowedRoles = none ∧
      applyUpdate state u = .ok next ∧
      next.operations.map OperationReview.allowedRoles ≠ state.operations.map OperationReview.allowedRoles := by
  refine ⟨⟨[unsortedEntry]⟩,⟨[{ unsortedEntry with allowedRoles := [.str "a",.str "b"] }]⟩,
    { operationKey := "get /a", accessMode := some "restricted" },by decide,rfl,rfl,?_⟩
  intro same
  have first : Str.lit "a" = Str.lit "b" := by
    simp only [List.map_cons,List.map_nil,unsortedEntry,List.cons.injEq,Value.str.injEq] at same
    exact same.1.1
  exact absurd first (by decide)

end Unsorted

end ToolLayer.ControlPlane
