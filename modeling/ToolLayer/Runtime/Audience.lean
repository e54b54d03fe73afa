import ToolLayer.Contracts.Agreement
import ToolLayer.Runtime.Index
import ToolLayer.Runtime.Orchestrator

/-! Who may use a tool: what the stored policy of a loaded tool says, and what the runtime
makes of it. -/
namespace ToolLayer.Runtime
open Python Kit Kit.Result Policy

/-- The roles a caller comes with; nobody comes with none. -/
def rolesOf (caller : Option CallerIdentity) : List Str := (caller.map CallerIdentity.roles).getD []

/-- The tool is public, or the caller holds one of its roles. -/
def MayUse (access : ToolAccessPolicy) (caller : Option CallerIdentity) : Prop :=
  access.accessMode = .isPublic ∨ ∃ role ∈ rolesOf caller, role ∈ access.allowedRoles

/-- A role list as the runtime reads one; `access.get` makes no difference between an absent
list and null, and neither has roles. -/
def RoleList (v : Value) (roles : List Str) : Prop :=
  (v = .null ∧ roles = []) ∨
    (v = .list (roles.map .str) ∧ roles.length ≤ maxRoles ∧ ∀ role ∈ roles, Patterns.key role = true)

/-- A policy without access, or with a recognised mode and roles that fit it. -/
def Readable (policy : Value) : Prop :=
  ∃ d, policy = .dict d ∧ (Dict.get d "access" = .null ∨ ∃ (access : Dict) (mode : AccessMode) (roles : List Str),
    Dict.get d "access" = .dict access ∧ Dict.get access "access_mode" = .str mode.text ∧
    RoleList (Dict.get access "allowed_roles") roles ∧ (mode = .isPublic ↔ roles = []))

section Reading

def roleOf : Value → Option Str
  | .str role => if Patterns.key role then some role else none
  | _ => none

theorem roleOf_eq_some {v : Value} {role : Str} : roleOf v = some role ↔ v = .str role ∧ Patterns.key role = true := by
  unfold roleOf
  split
  next s =>
    split
    next canonical =>
      rw [Option.some.injEq,Value.str.injEq]
      exact ⟨fun same => ⟨same,same ▸ canonical⟩,And.left⟩
    next other =>
      simp only [reduceCtorEq,Value.str.injEq,false_iff,not_and]
      rintro rfl
      exact other
  next other =>
    simp only [reduceCtorEq,false_iff,not_and]
    rintro rfl
    exact absurd rfl (other role)

theorem forall₂_roleOf {items : List Value} {roles : List Str} :
    List.Forall₂ (fun w role => roleOf w = some role) items roles ↔
      items = roles.map .str ∧ ∀ role ∈ roles, Patterns.key role = true := by
  induction roles generalizing items with
  | nil => simp
  | cons role roles ih =>
    rw [List.forall₂_cons_right_iff]
    constructor
    · rintro ⟨w,rest,first,tail,rfl⟩
      obtain ⟨rfl,canonical⟩ := roleOf_eq_some.mp first
      obtain ⟨rfl,each⟩ := ih.mp tail
      exact ⟨rfl,List.forall_mem_cons.mpr ⟨canonical,each⟩⟩
    · rintro ⟨rfl,each⟩
      rw [List.forall_mem_cons] at each
      exact ⟨_,_,roleOf_eq_some.mpr ⟨rfl,each.1⟩,ih.mpr ⟨rfl,each.2⟩,rfl⟩

theorem readRoles_eq_some {v : Value} {roles : List Str} : readRoles v = some roles ↔ RoleList v roles := by
  have listed (items : List Value) : readRoles (.list items) = some roles ↔
      items.length ≤ maxRoles ∧ items = roles.map .str ∧ ∀ role ∈ roles, Patterns.key role = true := by
    have read : Read.tuple roleOf (.list items) = some roles ↔
        items = roles.map .str ∧ ∀ role ∈ roles, Patterns.key role = true := by
      rw [Read.tuple_iff,← forall₂_roleOf]
      simp
    rw [readRoles]
    split
    next long => simp [Nat.not_le.mpr long]
    next short => exact read.trans (and_iff_right (Nat.not_lt.mp short)).symm
  cases v with
  | null =>
    rw [readRoles,Option.some.injEq]
    constructor
    · exact fun same => .inl ⟨rfl,same.symm⟩
    · rintro (⟨_,rfl⟩ | ⟨none_,_⟩)
      · rfl
      · cases none_
  | list items =>
    rw [listed,RoleList]
    constructor
    · rintro ⟨short,rfl,each⟩
      exact .inr ⟨rfl,by simpa using short,each⟩
    · rintro (⟨none_,_⟩ | ⟨same,short,each⟩)
      · cases none_
      · cases same
        exact ⟨by simpa using short,rfl,each⟩
  | _ => simp [readRoles,RoleList]

theorem readAccess_eq_some {access : Dict} {policy : ToolAudiencePolicy} : readAccess access = some policy ↔
    Dict.get access "access_mode" = .str policy.accessMode.text ∧
      RoleList (Dict.get access "allowed_roles") policy.allowedRoles ∧
      (policy.accessMode = .isPublic ↔ policy.allowedRoles = []) := by
  have spelled (m : AccessMode) : [AccessMode.isPublic,.restricted].find? (fun n => n.text == m.text) = some m := by
    cases m <;> decide
  obtain ⟨mode,roles⟩ := policy
  unfold readAccess
  simp only [Option.bind_eq_bind,Option.bind_eq_some_iff,Read.literal_iff (spelled _),readRoles_eq_some]
  constructor
  · rintro ⟨m,found,rs,listed,rest⟩
    cases m with
    | isPublic =>
      by_cases none_ : rs = []
      · simp [none_] at rest
        obtain ⟨rfl,rfl⟩ := rest
        exact ⟨found,none_ ▸ listed,by simp⟩
      · simp [none_] at rest
    | restricted =>
      by_cases none_ : rs = []
      · simp [none_] at rest
      · simp [none_] at rest
        obtain ⟨rfl,rfl⟩ := rest
        exact ⟨found,listed,by simp [none_]⟩
  · rintro ⟨found,listed,fits⟩
    refine ⟨mode,found,roles,listed,?_⟩
    cases mode with
    | isPublic => simp [fits.mp rfl]
    | restricted =>
      have some_ : roles ≠ [] := fun none_ => nomatch fits.mpr none_
      simp [some_]

theorem parseAudiencePolicy_isSome {policy : Value} : (∃ p, parseAudiencePolicy policy = some p) ↔ Readable policy := by
  unfold parseAudiencePolicy Readable
  cases policy with
  | dict d =>
    cases found : Dict.get d "access" with
    | null => simp [found]
    | dict access =>
      constructor
      · rintro ⟨p,read⟩
        obtain ⟨mode,listed,fits⟩ := readAccess_eq_some.mp (by simpa [found] using read)
        exact ⟨d,rfl,.inr ⟨access,_,_,found,mode,listed,fits⟩⟩
      · rintro ⟨_,object,inside⟩
        cases object
        rw [found] at inside
        rcases inside with none_ | ⟨_,mode,roles,same,spelled,listed,fits⟩
        · cases none_
        · cases same
          refine ⟨⟨mode,roles⟩,?_⟩
          simpa [found] using readAccess_eq_some.mpr ⟨spelled,listed,fits⟩
    | _ => simp [found]
  | _ => simp

theorem allowed_iff {policy : ToolAudiencePolicy} {caller : Option CallerIdentity} :
    (authorizeTool (some policy) caller).allowed = true ↔
      policy.accessMode = .isPublic ∨ ∃ role ∈ rolesOf caller, role ∈ policy.allowedRoles := by
  unfold authorizeTool
  cases mode : policy.accessMode with
  | isPublic => simp [ToolAudiencePolicy.isRestricted,mode]
  | restricted =>
    have held : (caller.map CallerIdentity.roles).getD [] = rolesOf caller := rfl
    simp only [ToolAudiencePolicy.isRestricted,mode,held,beq_self_eq_true,if_true,reduceCtorEq,false_or]
    split
    next none_ => simp [List.isEmpty_iff.mp none_]
    next =>
      split
      next shared => simpa using shared
      next apart => simpa using apart

/-- More roles never take a permission away. -/
theorem allowed_mono {policy : Value} {caller other : Option CallerIdentity} (grown : rolesOf caller ⊆ rolesOf other)
    (allowed : (authorizeStoredPolicy policy caller).allowed = true) : (authorizeStoredPolicy policy other).allowed = true := by
  unfold authorizeStoredPolicy at allowed ⊢
  cases parsed : parseAudiencePolicy policy with
  | none =>
    rw [parsed] at allowed
    cases allowed
  | some p =>
    rw [parsed,allowed_iff] at allowed
    rw [allowed_iff]
    rcases allowed with isPublic | ⟨role,holds,listed⟩
    · exact .inl isPublic
    · exact .inr ⟨role,grown holds,listed⟩

theorem denied_of_unreadable {policy : Value} (unreadable : ¬ Readable policy) (caller : Option CallerIdentity) :
    (authorizeStoredPolicy policy caller).allowed = false := by
  rw [authorizeStoredPolicy]
  cases parsed : parseAudiencePolicy policy with
  | none => rfl
  | some p => exact absurd (parseAudiencePolicy_isSome.mp ⟨p,parsed⟩) unreadable

end Reading

section Loading

/-- A policy whose roles are few enough is read as it was written. -/
theorem allowed_dump {policy : ToolPolicy} (few : policy.access.allowedRoles.length ≤ maxRoles)
    (caller : Option CallerIdentity) :
    (authorizeStoredPolicy policy.dump caller).allowed = true ↔ MayUse policy.access caller := by
  obtain ⟨keys,fits,_,_⟩ := policy.access.accepted
  have canonical : ∀ role ∈ policy.access.allowedRoles, Patterns.key role = true := by
    intro role member
    have key := keys role member
    rw [resourceKey,Bool.and_eq_true] at key
    exact key.2
  have parsed : parseAudiencePolicy policy.dump = some ⟨policy.access.accessMode,policy.access.allowedRoles⟩ := by
    have access : readAccess [("access_mode",.str policy.access.accessMode.text),
        ("allowed_roles",.list (policy.access.allowedRoles.map .str))] =
          some ⟨policy.access.accessMode,policy.access.allowedRoles⟩ :=
      readAccess_eq_some.mpr ⟨rfl,.inr ⟨rfl,few,canonical⟩,fits⟩
    exact access
  rw [authorizeStoredPolicy,parsed,allowed_iff,MayUse]

variable [Pydantic]

/-- The schema bounds the roles of a tool that the models then read. -/
theorem roles_bounded {v : Value} {tool : ToolDefinition} (valid : Schemas.toolDefinition v = [])
    (read : ToolDefinition.read v = some tool) : tool.policy.access.allowedRoles.length ≤ maxRoles := by
  obtain ⟨d,_,policy,_,rfl,_,_,_,_,_,_,_,policyFound,policyRead,_⟩ := ToolDefinition.read_iff.mp read
  obtain ⟨p,_,access,rfl,_,_,_,_,accessFound,accessRead⟩ := ToolPolicy.read_iff.mp policyRead
  obtain ⟨a,roles,rfl,_,_,listed,sorted⟩ := ToolAccessPolicy.read_iff.mp accessRead
  obtain ⟨_,same,_,fields⟩ := Rule.object_eq_nil.mp valid
  cases same
  obtain ⟨_,found,policyTaken⟩ := fields (Str.lit "policy",Schemas.toolPolicy) (by simp)
  cases policyFound.symm.trans found
  obtain ⟨_,same,_,fields⟩ := Rule.object_eq_nil.mp policyTaken
  cases same
  obtain ⟨_,found,accessTaken⟩ := fields (Str.lit "access",Schemas.toolAccessPolicy) (by simp)
  cases accessFound.symm.trans found
  rw [Schemas.toolAccessPolicy,Rule.all_cons_eq_nil] at accessTaken
  obtain ⟨_,same,_,fields⟩ := Rule.object_eq_nil.mp accessTaken.1
  cases same
  obtain ⟨_,found,rolesTaken⟩ := fields (Str.lit "allowed_roles",Schemas.unique 32 Schemas.key) (by simp)
  cases listed.symm.trans found
  have bounded := Sides.schemaOnly_first.mp (Sides.roles_first.mp rolesTaken).2
  rw [← sorted,List.length_insertionSort]
  simpa [maxRoles] using bounded

variable [Unicode] {scheme : Ed25519} {engine : SchemaEngine} {verification : SnapshotVerification} {document : Dict}
  {loaded : LoadedSnapshot}

theorem few_roles (accepted : Loaded scheme engine verification document loaded) {b : BoundTool}
    (member : b ∈ loaded.toolsByName.tools) : b.tool.policy.access.allowedRoles.length ≤ maxRoles := by
  obtain ⟨_,_,_,_,valid,_⟩ := (validateDeploymentSnapshot_eq_ok engine).mp accepted.verified.valid
  obtain ⟨items,listed,connectors⟩ := Sides.exists_connectors engine valid
  have read := DeploymentSnapshot.modelValidate_eq_ok.mp accepted.validated
  obtain ⟨_,_,_,same,_,_,_,_,_,_,_,_,found,each,_⟩ := DeploymentSnapshot.read_iff.mp read
  cases same
  cases listed.symm.trans found
  rcases indexOf_cases loaded.snapshot with ⟨_,index,indexed,tools⟩ | ⟨_,failed⟩
  · rw [accepted.indexed] at indexed
    cases indexed
    rw [tools,List.mem_flatMap] at member
    obtain ⟨c,inside,bound_⟩ := member
    obtain ⟨t,offered,rfl⟩ := List.mem_map.mp bound_
    obtain ⟨w,written,connectorRead⟩ := exists_left each inside
    obtain ⟨_,_,_,_,toolValues,rfl,_,_,_,_,_,_,_,_,_,_,_,toolsFound,toolsRead,_⟩ := ConnectorDefinition.read_iff.mp connectorRead
    obtain ⟨_,same,_,fields⟩ := Rule.object_eq_nil.mp (connectors _ written)
    cases same
    obtain ⟨_,found,taken⟩ := fields (Str.lit "tools",Rule.all [Rule.type [.array],Rule.minItems 1,
      Rule.maxItems 256,Rule.uniqueItems,Rule.items Schemas.toolDefinition]) (by simp)
    cases toolsFound.symm.trans found
    simp only [Rule.all_cons_eq_nil,Rule.items_eq_nil] at taken
    obtain ⟨wt,toolWritten,toolRead⟩ := exists_left toolsRead offered
    exact roles_bounded (taken.2.2.2.2.1 wt toolWritten) toolRead
  · rw [accepted.indexed] at failed
    cases failed

end Loading

/-- Loaded tools are open to those whom their policy names, discovery and execution agree, more
roles permit no less, and a policy that cannot be read permits nobody. -/
theorem authorization_exact [Pydantic] [Unicode] :
    (∀ scheme engine verification value etag now loaded,
      loadSnapshotDocument scheme engine verification value etag now = .ok loaded →
      ∀ b ∈ loaded.toolsByName.tools, ∀ caller,
        ((authorizeStoredPolicy b.tool.policy.dump caller).allowed = true ↔ MayUse b.tool.policy.access caller)) ∧
    (∀ policy caller other, rolesOf caller ⊆ rolesOf other →
      (authorizeStoredPolicy policy caller).allowed = true → (authorizeStoredPolicy policy other).allowed = true) ∧
    (∀ (loaded : LoadedSnapshot) caller b, b ∈ discoverIn loaded caller ↔
      b ∈ loaded.toolsByName.tools ∧ authorize b caller = .ok ()) ∧
    ∀ policy, ¬ Readable policy → ∀ caller, (authorizeStoredPolicy policy caller).allowed = false := by
  refine ⟨?_,fun _ _ _ grown allowed => allowed_mono grown allowed,?_,fun _ => denied_of_unreadable⟩
  · intro scheme engine verification value etag now loaded accepted b member caller
    obtain ⟨document,_,passed,_,_⟩ := loadSnapshotDocument_eq_ok.mp accepted
    exact allowed_dump (few_roles passed member) caller
  · intro loaded caller b
    rw [discoverIn,List.mem_filter,authorize,refuse_eq_ok]
    simp

end ToolLayer.Runtime
