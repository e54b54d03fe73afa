import ToolLayer.Policy.Origins

/-! Which addresses a checked destination may have, whatever the resolver answers. -/
namespace Python

/-- 127.0.0.0/8 and ::1. -/
def IpAddress.inLoopback : IpAddress → Bool
  | .v4 n => n / 2 ^ 24 == 127
  | .v6 n => n == 1

/-- 169.254.0.0/16 and fe80::/10. -/
def IpAddress.inLinkLocal : IpAddress → Bool
  | .v4 n => n / 2 ^ 16 == 0xA9FE
  | .v6 n => n / 2 ^ 118 == 0x3FA

theorem IpAddress.inLinkLocal_of_inLoopback {a : IpAddress} (loopback : a.inLoopback = true) : a.inLinkLocal = false := by
  cases a with
  | v4 n =>
    simp only [inLoopback,beq_iff_eq] at loopback
    simp only [inLinkLocal,beq_eq_false_iff_ne]
    omega
  | v6 n =>
    simp only [inLoopback,beq_iff_eq] at loopback
    subst loopback
    rfl

/-- The registry has the loopback and link-local ranges of the address standards. -/
structure AddressRegistry.Documented [AddressRegistry] : Prop where
  loopback : ∀ a : IpAddress, AddressRegistry.isLoopback a.unmapped = a.unmapped.inLoopback
  linkLocal : ∀ a : IpAddress, AddressRegistry.isLinkLocal a.unmapped = a.unmapped.inLinkLocal

end Python

namespace ToolLayer.Policy
open Python Kit Kit.Result

/-- A refusal, whatever its message. -/
def IsPolicyDenied (e : PyExc) : Prop := ∃ code message, e = policyDenied code message

/-- Two runs that both succeed with the same result but for one's order, or both raise one of a family. -/
def Alike {A : Type} (same : A → A → Prop) (family : PyExc → Prop) : Except PyExc A → Except PyExc A → Prop
  | .ok a,.ok b => same a b
  | .error e,.error f => family e ∧ family f
  | _,_ => False

namespace DestinationPolicy

section Loop

variable {E A : Type}

/-- A loop of checks runs through in one order exactly when it does in another. -/
theorem loop_unit_perm {step : A → Except E Unit} {items others : List A} (reordered : items.Perm others) :
    loop (fun _ a => step a) () items = .ok () ↔ loop (fun _ a => step a) () others = .ok () := by
  rw [loop_unit_eq_ok,loop_unit_eq_ok]
  exact ⟨fun all a member => all a (reordered.mem_iff.mpr member),fun all a member => all a (reordered.mem_iff.mp member)⟩

end Loop

variable [AddressRegistry] (policy : DestinationPolicy)

/-- An address a deployment may reach. -/
structure MayReach (a : IpAddress) : Prop where
  linkLocal : AddressRegistry.isLinkLocal a = false
  ordinary : AddressRegistry.isLoopback a = true ∨ AddressRegistry.isMulticast a = false ∧
    AddressRegistry.isReserved a = false ∧ AddressRegistry.isUnspecified a = false
  loopback : AddressRegistry.isLoopback a = true → policy.allowLoopback = true
  privateAddress : AddressRegistry.isLoopback a = false → AddressRegistry.isGlobal a = false →
    policy.allowPrivateAddresses = true

theorem checkAddress_eq_ok (documented : AddressRegistry.Documented) {address : Str} : policy.checkAddress address = .ok () ↔
    ∃ parsed, Ip.address? address = some parsed ∧ policy.MayReach parsed.unmapped := by
  unfold checkAddress
  cases Ip.address? address with
  | none => simp
  | some parsed =>
    simp only [Option.some.injEq,exists_eq_left']
    cases loopback : AddressRegistry.isLoopback parsed.unmapped with
    | true =>
      have linkLocal : AddressRegistry.isLinkLocal parsed.unmapped = false := by
        rw [documented.linkLocal]
        exact IpAddress.inLinkLocal_of_inLoopback (documented.loopback parsed ▸ loopback)
      rw [if_pos rfl,refuse_eq_ok,Bool.not_eq_false']
      exact ⟨fun allowed => ⟨linkLocal,Or.inl loopback,fun _ => allowed,fun not => absurd (loopback.symm.trans not) (by decide)⟩,
        fun reach => reach.loopback loopback⟩
    | false =>
      rw [if_neg Bool.false_ne_true]
      simp only [refuse_bind_eq_ok,refuse_eq_ok,Bool.or_eq_false_iff,Bool.and_eq_false_iff,Bool.not_eq_false']
      constructor
      · rintro ⟨⟨⟨multicast,reserved⟩,unspecified⟩,linkLocal,routed⟩
        refine ⟨linkLocal,Or.inr ⟨multicast,reserved,unspecified⟩,fun yes => absurd (loopback.symm.trans yes) (by decide),fun _ not => ?_⟩
        rcases routed with isGlobal | allowed
        · cases not.symm.trans isGlobal
        · exact allowed
      · rintro ⟨linkLocal,ordinary,_,privateAddress⟩
        obtain ⟨multicast,reserved,unspecified⟩ := ordinary.resolve_left (fun yes => absurd (loopback.symm.trans yes) (by decide))
        refine ⟨⟨⟨multicast,reserved⟩,unspecified⟩,linkLocal,?_⟩
        cases isGlobal : AddressRegistry.isGlobal parsed.unmapped with
        | true => exact Or.inl rfl
        | false => exact Or.inr (privateAddress loopback isGlobal)

theorem checkAddress_only (address : Str) : Only IsPolicyDenied (policy.checkAddress address) := by
  unfold checkAddress
  split
  next => exact only_error ⟨_,_,rfl⟩
  next =>
    dsimp only
    split
    next => exact only_refuse (fun _ => ⟨_,_,rfl⟩)
    next =>
      refine only_bind (only_refuse (fun _ => ⟨_,_,rfl⟩)) (fun _ _ => ?_)
      refine only_bind (only_refuse (fun _ => ⟨_,_,rfl⟩)) (fun _ _ => ?_)
      exact only_refuse (fun _ => ⟨_,_,rfl⟩)

variable [Unicode]

theorem settle_eq_ok {authority : Authority} {addresses : List Str} {d : ResolvedDestination} :
    policy.settle authority addresses = .ok d ↔ (∀ address ∈ addresses, policy.checkAddress address = .ok ()) ∧
      d = ⟨originText authority.scheme authority.host authority.port,authority.scheme,Unicode.lower authority.host,
        authority.port,addresses⟩ := by
  unfold settle
  rw [bind_eq_ok]
  constructor
  · rintro ⟨_,all,made⟩
    cases made
    exact ⟨loop_unit_eq_ok.mp all,rfl⟩
  · rintro ⟨all,rfl⟩
    exact ⟨(),loop_unit_eq_ok.mpr all,rfl⟩

theorem check_eq_ok {url : Str} {resolver : DnsResolver} {d : ResolvedDestination} :
    policy.check url resolver = .ok d ↔ ∃ authority addresses, policy.originStep url = .ok authority ∧
      resolvedAddresses authority.host authority.port resolver = .ok addresses ∧ policy.settle authority addresses = .ok d := by
  rw [check_eq]
  simp only [bind_eq_ok,exists_and_left]

omit [AddressRegistry] in
theorem originStep_only (url : Str) : Only IsPolicyDenied (policy.originStep url) := by
  unfold originStep
  split
  next => exact only_error ⟨_,_,rfl⟩
  next =>
    refine only_bind (only_refuse (fun _ => ⟨_,_,rfl⟩)) (fun _ _ => ?_)
    refine only_bind (only_refuse (fun _ => ⟨_,_,rfl⟩)) (fun _ _ => ?_)
    refine only_bind (only_refuse (fun _ => ⟨_,_,rfl⟩)) (fun _ _ => ?_)
    exact only_bind (only_refuse (fun _ => ⟨_,_,rfl⟩)) (fun _ _ => only_ok _)

theorem settle_only (authority : Authority) (addresses : List Str) :
    Only IsPolicyDenied (policy.settle authority addresses) :=
  only_bind (only_loop (fun _ address _ => policy.checkAddress_only address)) (fun _ _ => only_ok _)

section Order

/-- The same destination, its addresses in another order. -/
def SameButOrder (d d' : ResolvedDestination) : Prop :=
  d.addresses.Perm d'.addresses ∧ d' = { d with addresses := d'.addresses }

/-- Two resolvers whose answers differ in order only. -/
def Reorders (resolver other : DnsResolver) : Prop :=
  ∀ host port, Alike List.Perm IsPolicyDenied (resolver host port) (other host port)

theorem settle_reordered {addresses others : List Str} (reordered : addresses.Perm others) (authority : Authority) :
    Alike SameButOrder IsPolicyDenied (policy.settle authority addresses) (policy.settle authority others) := by
  have refused := policy.settle_only authority
  have whole : ∀ {some_ others : List Str}, some_.Perm others → (∀ address ∈ some_, policy.checkAddress address = .ok ()) →
      ∃ d, policy.settle authority others = .ok d := fun reordered all =>
    ⟨_,policy.settle_eq_ok.mpr ⟨fun address member => all address (reordered.mem_iff.mpr member),rfl⟩⟩
  cases one : policy.settle authority addresses with
  | ok d =>
    obtain ⟨all,rfl⟩ := policy.settle_eq_ok.mp one
    obtain ⟨d',other⟩ := whole reordered all
    rw [other]
    obtain ⟨_,rfl⟩ := policy.settle_eq_ok.mp other
    exact ⟨reordered,rfl⟩
  | error e =>
    cases other : policy.settle authority others with
    | ok d' =>
      obtain ⟨all,_⟩ := policy.settle_eq_ok.mp other
      obtain ⟨_,done⟩ := whole reordered.symm all
      cases one.symm.trans done
    | error f => exact ⟨refused addresses e one,refused others f other⟩

/-- The order of the answers decides only which refusal is reported. -/
theorem check_reordered {resolver other : DnsResolver} (reorders : Reorders resolver other) (url : Str) :
    Alike SameButOrder IsPolicyDenied (policy.check url resolver) (policy.check url other) := by
  rw [check_eq,check_eq]
  cases step : policy.originStep url with
  | error e => exact ⟨policy.originStep_only url e step,policy.originStep_only url e step⟩
  | ok authority =>
    rw [ok_bind,ok_bind]
    unfold resolvedAddresses
    cases Ip.address? authority.host with
    | some literal => exact policy.settle_reordered (List.Perm.refl _) authority
    | none =>
      have alike := reorders authority.host authority.port
      dsimp only
      cases one : resolver authority.host authority.port with
      | ok answer =>
        cases two : other authority.host authority.port with
        | ok answer' =>
          rw [one,two] at alike
          exact policy.settle_reordered alike authority
        | error f =>
          rw [one,two] at alike
          exact alike.elim
      | error e =>
        cases two : other authority.host authority.port with
        | ok answer' =>
          rw [one,two] at alike
          exact alike.elim
        | error f =>
          rw [one,two] at alike
          exact alike

end Order

section Flags

/-- The same policy with some flags turned on. -/
structure Loosens (policy loose : DestinationPolicy) : Prop where
  origins : loose.allowedOrigins = policy.allowedOrigins
  plaintext : policy.allowPlaintextHttp = true → loose.allowPlaintextHttp = true
  loopback : policy.allowLoopback = true → loose.allowLoopback = true
  privateAddresses : policy.allowPrivateAddresses = true → loose.allowPrivateAddresses = true

variable {policy} {loose : DestinationPolicy}

omit [AddressRegistry] in
theorem Loosens.originStep (loosens : Loosens policy loose) {url : Str} {authority : Authority}
    (done : policy.originStep url = .ok authority) : loose.originStep url = .ok authority := by
  obtain ⟨t,found,clean,permits,listed,made⟩ := policy.originStep_eq_ok.mp done
  refine loose.originStep_eq_ok.mpr ⟨t,found,clean,fun http => loosens.plaintext (permits http),?_,made⟩
  rw [loosens.origins]
  exact listed

omit [Unicode] in
theorem Loosens.mayReach (loosens : Loosens policy loose) {a : IpAddress} (reach : policy.MayReach a) : loose.MayReach a :=
  ⟨reach.linkLocal,reach.ordinary,fun yes => loosens.loopback (reach.loopback yes),
    fun no not => loosens.privateAddresses (reach.privateAddress no not)⟩

theorem Loosens.check (loosens : Loosens policy loose) (documented : AddressRegistry.Documented) {url : Str}
    {resolver : DnsResolver} {d : ResolvedDestination} (done : policy.check url resolver = .ok d) :
    loose.check url resolver = .ok d := by
  obtain ⟨authority,addresses,step,resolved,settled⟩ := policy.check_eq_ok.mp done
  obtain ⟨all,made⟩ := policy.settle_eq_ok.mp settled
  refine loose.check_eq_ok.mpr ⟨authority,addresses,loosens.originStep step,resolved,loose.settle_eq_ok.mpr ⟨?_,made⟩⟩
  intro address member
  obtain ⟨parsed,read,reach⟩ := (policy.checkAddress_eq_ok documented).mp (all address member)
  exact (loose.checkAddress_eq_ok documented).mpr ⟨parsed,read,loosens.mayReach reach⟩

end Flags

section Calls

/-- `_resolved_addresses` in any monad the resolver runs in. -/
def resolvedIn {M : Type → Type} [Monad M] (host : Str) (port : Nat) (resolver : Str → Nat → ExceptT PyExc M (List Str)) :
    ExceptT PyExc M (List Str) :=
  match Ip.address? host with
  | some literal => pure [AddressRegistry.text literal ++ zoneOf host literal]
  | none => resolver host port

/-- `check` in any monad its resolver runs in. -/
def checkIn {M : Type → Type} [Monad M] (url : Str) (resolver : Str → Nat → ExceptT PyExc M (List Str)) :
    ExceptT PyExc M ResolvedDestination := do
  let authority ← ExceptT.mk (pure (policy.originStep url))
  let addresses ← resolvedIn authority.host authority.port resolver
  ExceptT.mk (pure (policy.settle authority addresses))

/-- A resolver that notes what it is asked. -/
def noted (resolver : DnsResolver) (host : Str) (port : Nat) : ExceptT PyExc (StateM (List (Str × Nat))) (List Str) :=
  ExceptT.mk (fun calls => (resolver host port,calls ++ [(host,port)]))

/-- What `check` returns, and the calls it made. -/
def checkNoted (url : Str) (resolver : DnsResolver) : Except PyExc ResolvedDestination × List (Str × Nat) :=
  (policy.checkIn url (noted resolver)).run []

/-- One call for a host that is no literal, and none before the origin step is passed. -/
theorem checkNoted_eq (url : Str) (resolver : DnsResolver) : policy.checkNoted url resolver =
    (policy.check url resolver,match policy.originStep url with
      | .error _ => []
      | .ok authority => if (Ip.address? authority.host).isSome then [] else [(authority.host,authority.port)]) := by
  rw [check_eq]
  unfold checkNoted checkIn
  cases policy.originStep url with
  | error e => rfl
  | ok authority =>
    change StateT.run (ExceptT.run (resolvedIn authority.host authority.port (noted resolver) >>= fun addresses =>
      ExceptT.mk (pure (policy.settle authority addresses)))) [] = _
    rw [ok_bind,resolvedAddresses,resolvedIn]
    dsimp only
    cases Ip.address? authority.host with
    | some literal => rfl
    | none =>
      unfold noted
      dsimp only
      generalize resolver authority.host authority.port = answer
      cases answer <;> rfl

end Calls

/-- The address policy of a deployment. -/
structure AddressesChecked : Prop where
  reached : ∀ (policy : DestinationPolicy) (url : Str) (resolver : DnsResolver) (d : ResolvedDestination),
    policy.check url resolver = .ok d → ∀ address ∈ d.addresses, ∃ parsed, Ip.address? address = some parsed ∧
      policy.MayReach parsed.unmapped
  order : ∀ (policy : DestinationPolicy) (url : Str) (resolver other : DnsResolver), Reorders resolver other →
    Alike SameButOrder IsPolicyDenied (policy.check url resolver) (policy.check url other)
  flags : ∀ (policy loose : DestinationPolicy) (url : Str) (resolver : DnsResolver) (d : ResolvedDestination),
    Loosens policy loose → policy.check url resolver = .ok d → loose.check url resolver = .ok d
  calls : ∀ (policy : DestinationPolicy) (url : Str) (resolver : DnsResolver),
    (policy.checkNoted url resolver).1 = policy.check url resolver ∧ (policy.checkNoted url resolver).2.length ≤ 1 ∧
      ∀ e, policy.originStep url = .error e → policy.check url resolver = .error e ∧ (policy.checkNoted url resolver).2 = []

theorem addresses_checked (documented : AddressRegistry.Documented) : AddressesChecked := by
  refine ⟨?_,fun policy url _ _ reorders => policy.check_reordered reorders url,
    fun _ _ _ _ _ loosens done => loosens.check documented done,?_⟩
  · intro policy url resolver d done address member
    obtain ⟨authority,addresses,_,_,settled⟩ := policy.check_eq_ok.mp done
    obtain ⟨all,rfl⟩ := policy.settle_eq_ok.mp settled
    exact (policy.checkAddress_eq_ok documented).mp (all address member)
  · intro policy url resolver
    rw [checkNoted_eq]
    refine ⟨rfl,?_,?_⟩
    · dsimp only
      split
      next => exact Nat.zero_le 1
      next =>
        split
        next => exact Nat.zero_le 1
        next => exact Nat.le_refl 1
    · intro e refused
      rw [check_eq,refused]
      exact ⟨rfl,rfl⟩

end DestinationPolicy

section Example

local instance registeredTables : Unicode := Unicode.asciiOnly

local instance registeredAddresses : AddressRegistry where
  text _ := []
  isLoopback := IpAddress.inLoopback
  isMulticast _ := false
  isReserved _ := false
  isUnspecified _ := false
  isLinkLocal := IpAddress.inLinkLocal
  isGlobal _ := true

theorem addresses_checked_example : DestinationPolicy.AddressesChecked :=
  DestinationPolicy.addresses_checked ⟨fun _ => rfl,fun _ => rfl⟩

end Example

end ToolLayer.Policy
