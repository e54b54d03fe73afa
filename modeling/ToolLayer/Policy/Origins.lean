import ToolLayer.Kit.Delimited
import ToolLayer.Policy.Destinations

/-! What two URLs have in common when they are compared as one origin. -/
namespace ToolLayer.Policy
open Python Kit Kit.Result

/-- Where a URL goes: the port is the one it writes, or else its scheme's. -/
structure Target where
  scheme : Str
  host : Str
  written : Option Nat
  standard : Nat
  hasUserinfo : Bool
  deriving DecidableEq

namespace Target

def port (t : Target) : Nat := t.written.getD t.standard

/-- `port or _DEFAULT_PORTS[scheme]`: a written zero counts as nothing written. -/
def compared (t : Target) : Nat :=
  match t.written with
  | some (n + 1) => n + 1
  | _ => t.standard

def site (t : Target) : Str × Str := (t.scheme,t.host)

def origin (t : Target) : Str := originText t.scheme t.host t.compared

def authority (t : Target) : Authority := ⟨t.scheme,t.host,t.compared,t.hasUserinfo⟩

end Target

section Text

theorem colon_not_mem_natural (n : Nat) : ∀ c ∈ Decimal.natural n, (c == CodePoint.ofChar ':') = false := by
  intro c member
  have digit := Decimal.isDigit_of_mem_natural member
  rw [beq_eq_false_iff_ne]
  rintro rfl
  exact absurd digit (by decide)

/-- The last colon divides the host from the port, whatever is in the host. -/
theorem hostPort_cancel {host other : Str} {n m : Nat}
    (same : host ++ CodePoint.ofChar ':' :: Decimal.natural n = other ++ CodePoint.ofChar ':' :: Decimal.natural m) :
    host = other ∧ n = m := by
  have backwards : (Decimal.natural n).reverse ++ CodePoint.ofChar ':' :: host.reverse =
      (Decimal.natural m).reverse ++ CodePoint.ofChar ':' :: other.reverse := by
    have reversed := congrArg List.reverse same
    simpa using reversed
  have digits : ∀ k : Nat, ∀ c ∈ (Decimal.natural k).reverse, (c == CodePoint.ofChar ':') = false :=
    fun k c member => colon_not_mem_natural k c (List.mem_reverse.mp member)
  have ends : ∀ s : Str, Delimited.Ends (fun c => c == CodePoint.ofChar ':') (CodePoint.ofChar ':' :: s.reverse) :=
    fun s => Delimited.Ends.cons (by simp)
  obtain ⟨ports,hosts⟩ := Delimited.word_cancel (digits n) (digits m) (ends host) (ends other) backwards
  exact ⟨List.reverse_injective (List.cons.inj hosts).2,Decimal.natural_injective (List.reverse_injective ports)⟩

theorem defaultPort_schemes {scheme : Str} {standard : Nat} (known : defaultPort scheme = some standard) :
    scheme = Str.lit "http" ∨ scheme = Str.lit "https" := by
  unfold defaultPort at known
  split at known
  next http => exact Or.inl http
  next =>
    split at known
    next https => exact Or.inr https
    next => cases known

/-- Two origins of known schemes are one text only when they are one origin. -/
theorem originText_inj {scheme scheme' host host' : Str} {n m standard standard' : Nat}
    (known : defaultPort scheme = some standard) (known' : defaultPort scheme' = some standard') :
    originText scheme host n = originText scheme' host' m ↔ scheme = scheme' ∧ host = host' ∧ n = m := by
  refine ⟨fun same => ?_,fun ⟨s,h,p⟩ => by rw [s,h,p]⟩
  unfold originText at same
  have schemes : scheme = scheme' := by
    have fifth := congrArg (List.take 5) same
    rcases defaultPort_schemes known with rfl | rfl <;> rcases defaultPort_schemes known' with rfl | rfl
    · rfl
    · have apart : Str.lit "http:" = Str.lit "https" := fifth
      exact absurd apart (by decide)
    · have apart : Str.lit "https" = Str.lit "http:" := fifth
      exact absurd apart (by decide)
    · rfl
  subst schemes
  simp only [List.append_assoc] at same
  have rest := List.append_cancel_left (List.append_cancel_left same)
  exact ⟨rfl,hostPort_cancel rest⟩

end Text

section Targets

variable [Unicode]

/-- The target of a URL that can be parsed. -/
def target? (value : Str) : Option Target :=
  if Url.splittable value then
    let parsed := Url.components value
    match defaultPort parsed.scheme,Url.hostname parsed.netloc,Url.port parsed.netloc with
    | some standard,some host,some port =>
      let (name,password) := Url.userinfo parsed.netloc
      let host := Str.rstrip (fun c => c == CodePoint.ofChar '.') host
      if host.isEmpty then none
      else some ⟨parsed.scheme,Unicode.lower host,port,standard,
        name.any (fun s => !s.isEmpty) || password.any (fun s => !s.isEmpty)⟩
    | _,_,_ => none
  else none

/-- `_split_authority` keeps of a target what it compares. -/
theorem splitAuthority_eq (value : Str) : splitAuthority value = (target? value).map Target.authority := by
  unfold splitAuthority target?
  split
  next =>
    dsimp only
    cases defaultPort (Url.components value).scheme with
    | none => rfl
    | some standard =>
      cases Url.hostname (Url.components value).netloc with
      | none => rfl
      | some host =>
        cases Url.port (Url.components value).netloc with
        | none => rfl
        | some port =>
          dsimp only
          split <;> rfl
  next => rfl

theorem target_known {value : Str} {t : Target} (found : target? value = some t) :
    defaultPort t.scheme = some t.standard := by
  unfold target? at found
  split at found
  next =>
    dsimp only at found
    split at found
    next known _ _ =>
      split at found
      next => cases found
      next =>
        cases found
        exact known
    next => cases found
  next => cases found

omit [Unicode] in
theorem standard_pos {scheme : Str} {standard : Nat} (known : defaultPort scheme = some standard) : 0 < standard := by
  rcases defaultPort_schemes known with rfl | rfl
  · cases known
    decide
  · cases known
    decide

/-- A configured origin is a URL, or a host and port of the https scheme. -/
def entryTarget (entry : Str) : Option Target :=
  target? (if Str.contains "://" entry then entry else Str.lit "https://" ++ entry)

theorem normalizeOrigin_eq_some {entry origin : Str} : normalizeOrigin entry = some origin ↔
    ∃ t, entryTarget entry = some t ∧ t.hasUserinfo = false ∧ t.origin = origin := by
  unfold normalizeOrigin entryTarget
  rw [splitAuthority_eq]
  cases target? (if Str.contains "://" entry then entry else Str.lit "https://" ++ entry) with
  | none => simp
  | some t =>
    obtain ⟨scheme,host,written,standard,hasUserinfo⟩ := t
    cases hasUserinfo <;> simp [Target.authority,Target.origin]

omit [Unicode] in
theorem Target.compared_eq (t : Target) : t.compared = if t.port = 0 then t.standard else t.port := by
  obtain ⟨scheme,host,written,standard,hasUserinfo⟩ := t
  rcases written with _ | _ | n
  · exact (ite_self standard).symm
  · rfl
  · rfl

/-- Two targets are one origin to the policy when they are, and also when one writes port zero
and the other has the standard port. -/
theorem origin_eq_iff {value value' : Str} {t t' : Target} (found : target? value = some t)
    (found' : target? value' = some t') : t.origin = t'.origin ↔ t.site = t'.site ∧
      (t.port = t'.port ∨ t.port = 0 ∧ t'.port = t'.standard ∨ t.port = t.standard ∧ t'.port = 0) := by
  have known := target_known found
  have known' := target_known found'
  rw [Target.origin,Target.origin,originText_inj known known',Target.compared_eq,Target.compared_eq,Target.site,Target.site,
    Prod.mk.injEq,and_assoc]
  refine and_congr_right fun schemes => and_congr_right fun _ => ?_
  have standards : t.standard = t'.standard := by
    rw [schemes,known'] at known
    exact (Option.some.inj known).symm
  have positive := standard_pos known'
  rw [standards]
  split <;> split <;> omega

end Targets

namespace DestinationPolicy

variable [Unicode] (policy : DestinationPolicy)

/-- `check` up to the allowlist, before any address is looked up. -/
def originStep (url : Str) : Except PyExc Authority :=
  match splitAuthority url with
  | none => .error (policyDenied .destinationNotAllowed "the destination URL is not parseable")
  | some authority => do
    refuse (authority.scheme == Str.lit "http" && !policy.allowPlaintextHttp)
      (policyDenied .destinationNotAllowed "plaintext http destinations are disabled for this deployment")
    refuse authority.hasUserinfo
      (policyDenied .destinationNotAllowed "the destination URL must not contain credentials")
    refuse policy.allowedOrigins.isEmpty
      (policyDenied .destinationNotAllowed "this deployment has no allowlisted destinations")
    refuse (!policy.allowedOrigins.contains (originText authority.scheme authority.host authority.port))
      (policyDenied .destinationNotAllowed "the destination origin is not on this deployment's allowlist")
    return authority

/-- The addresses of a destination on the allowlist, each checked. -/
def settle [AddressRegistry] (authority : Authority) (addresses : List Str) : Except PyExc ResolvedDestination := do
  let _ ← loop (fun _ address => policy.checkAddress address) () addresses
  return ⟨originText authority.scheme authority.host authority.port,authority.scheme,Unicode.lower authority.host,
    authority.port,addresses⟩

theorem check_eq [AddressRegistry] (url : Str) (resolver : DnsResolver) : policy.check url resolver = (do
    let authority ← policy.originStep url
    let addresses ← resolvedAddresses authority.host authority.port resolver
    policy.settle authority addresses) := by
  unfold check originStep
  cases splitAuthority url with
  | none => rfl
  | some authority =>
    simp only [bind_assoc]
    rfl

/-- A scheme the deployment sends requests with. -/
def Permits (scheme : Str) : Prop := scheme = Str.lit "http" → policy.allowPlaintextHttp = true

theorem originStep_eq_ok {url : Str} {authority : Authority} : policy.originStep url = .ok authority ↔
    ∃ t, target? url = some t ∧ t.hasUserinfo = false ∧ policy.Permits t.scheme ∧ t.origin ∈ policy.allowedOrigins ∧
      t.authority = authority := by
  unfold originStep
  rw [splitAuthority_eq]
  cases target? url with
  | none => simp
  | some t =>
    have permits : (t.scheme == Str.lit "http" && !policy.allowPlaintextHttp) = false ↔ policy.Permits t.scheme := by
      unfold Permits
      cases policy.allowPlaintextHttp <;> simp
    have nonempty : t.origin ∈ policy.allowedOrigins → policy.allowedOrigins.isEmpty = false := by
      intro member
      rw [List.isEmpty_eq_false_iff]
      exact List.ne_nil_of_mem member
    simp only [Option.map_some,refuse_bind_eq_ok,Target.authority,permits,pure_eq_ok,Except.ok.injEq,Option.some.injEq]
    constructor
    · rintro ⟨scheme,clean,_,listed,rfl⟩
      exact ⟨t,rfl,clean,scheme,by simpa [Target.origin] using listed,rfl⟩
    · rintro ⟨_,rfl,clean,scheme,listed,rfl⟩
      exact ⟨scheme,clean,nonempty listed,by simpa [Target.origin] using listed,rfl⟩

theorem fromOrigins_origins {origins methods : List Str} {plaintext loopback privateAddresses : Bool}
    (built : fromOrigins origins methods plaintext loopback privateAddresses = .ok policy) (origin : Str) :
    origin ∈ policy.allowedOrigins ↔ ∃ entry ∈ origins, normalizeOrigin entry = some origin := by
  unfold fromOrigins at built
  split at built
  next normalized all =>
    cases built
    have related := mapM_eq_some.mp all
    constructor
    · intro member
      exact exists_left related member
    · rintro ⟨entry,member,same⟩
      obtain ⟨o,inside,found⟩ := exists_right related member
      cases same.symm.trans found
      exact inside
  next => cases built

theorem fromOrigins_normal {origins methods : List Str} {plaintext loopback privateAddresses : Bool}
    (built : fromOrigins origins methods plaintext loopback privateAddresses = .ok policy) {entry : Str}
    (member : entry ∈ origins) : ∃ origin, normalizeOrigin entry = some origin := by
  unfold fromOrigins at built
  split at built
  next normalized all =>
    obtain ⟨origin,_,normal⟩ := exists_right (mapM_eq_some.mp all) member
    exact ⟨origin,normal⟩
  next => cases built

/-- Some configured entry is for the scheme and host of a target, at a port. -/
def Listed (origins : List Str) (t : Target) (port : Nat) : Prop :=
  ∃ entry ∈ origins, ∃ e, entryTarget entry = some e ∧ e.site = t.site ∧ e.port = port

/-- A URL gets past the origin step exactly when it may be parsed, carries no credentials, has a
permitted scheme and goes where some entry does. -/
def OriginExact (origins : List Str) (url : Str) : Prop :=
  (∃ authority, policy.originStep url = .ok authority) ↔
    ∃ t, target? url = some t ∧ t.hasUserinfo = false ∧ policy.Permits t.scheme ∧ Listed origins t t.port

/-- Port zero and the standard port of one scheme and host are not taken for each other: where one
of them is the URL's and the other is listed, the URL's own is listed too. -/
def ZeroKeptApart (origins : List Str) (url : Str) : Prop :=
  ∀ t, target? url = some t → t.hasUserinfo = false → policy.Permits t.scheme →
    (t.port = 0 → Listed origins t t.standard → Listed origins t 0) ∧
    (t.port = t.standard → Listed origins t 0 → Listed origins t t.standard)

theorem allowed_iff {origins methods : List Str} {plaintext loopback privateAddresses : Bool} {url : Str} {t : Target}
    (built : fromOrigins origins methods plaintext loopback privateAddresses = .ok policy) (found : target? url = some t) :
    t.origin ∈ policy.allowedOrigins ↔ Listed origins t t.port ∨ t.port = 0 ∧ Listed origins t t.standard ∨
      t.port = t.standard ∧ Listed origins t 0 := by
  rw [policy.fromOrigins_origins built]
  constructor
  · rintro ⟨entry,member,normal⟩
    obtain ⟨e,there,_,same⟩ := normalizeOrigin_eq_some.mp normal
    obtain ⟨site,ports⟩ := (origin_eq_iff there found).mp same
    have standards : e.standard = t.standard := by
      have known := target_known there
      rw [(Prod.mk.inj site).1,target_known found] at known
      exact (Option.some.inj known).symm
    rcases ports with equal | ⟨zero,standard⟩ | ⟨standard,zero⟩
    · exact Or.inl ⟨entry,member,e,there,site,equal⟩
    · exact Or.inr (Or.inr ⟨standard,entry,member,e,there,site,zero⟩)
    · exact Or.inr (Or.inl ⟨zero,entry,member,e,there,site,standards ▸ standard⟩)
  · intro listed
    have entry_ : ∀ {port}, Listed origins t port → (port = t.port ∨ port = 0 ∧ t.port = t.standard ∨
        port = t.standard ∧ t.port = 0) → ∃ entry ∈ origins, normalizeOrigin entry = some t.origin := by
      rintro port ⟨entry,member,e,there,site,rfl⟩ ports
      have standards : e.standard = t.standard := by
        have known := target_known there
        rw [(Prod.mk.inj site).1,target_known found] at known
        exact (Option.some.inj known).symm
      -- every entry was normalized when the policy was built, so none has credentials
      obtain ⟨o,normal⟩ := policy.fromOrigins_normal built member
      obtain ⟨e',there',clean,_⟩ := normalizeOrigin_eq_some.mp normal
      cases there.symm.trans there'
      exact ⟨entry,member,normalizeOrigin_eq_some.mpr ⟨e,there,clean,(origin_eq_iff there found).mpr
        ⟨site,standards.symm ▸ ports⟩⟩⟩
    rcases listed with equal | ⟨zero,standard⟩ | ⟨standard,zero⟩
    · exact entry_ equal (Or.inl rfl)
    · exact entry_ standard (Or.inr (Or.inr ⟨rfl,zero⟩))
    · exact entry_ zero (Or.inr (Or.inl ⟨rfl,standard⟩))

/-- Origin matching is exact, but for a written port zero. -/
theorem origin_exact_iff {origins methods : List Str} {plaintext loopback privateAddresses : Bool}
    (built : fromOrigins origins methods plaintext loopback privateAddresses = .ok policy) (url : Str) :
    policy.OriginExact origins url ↔ policy.ZeroKeptApart origins url := by
  have past : (∃ authority, policy.originStep url = .ok authority) ↔
      ∃ t, target? url = some t ∧ t.hasUserinfo = false ∧ policy.Permits t.scheme ∧ t.origin ∈ policy.allowedOrigins := by
    simp only [originStep_eq_ok]
    exact ⟨fun ⟨_,t,found,clean,scheme,listed,_⟩ => ⟨t,found,clean,scheme,listed⟩,
      fun ⟨t,found,clean,scheme,listed⟩ => ⟨_,t,found,clean,scheme,listed,rfl⟩⟩
  unfold OriginExact ZeroKeptApart
  rw [past]
  cases found : target? url with
  | none => simp
  | some t =>
    have allowed := policy.allowed_iff built found
    have standard := standard_pos (target_known found)
    constructor
    · rintro ⟨only,_⟩ _ ⟨⟩ clean scheme
      have listed : t.origin ∈ policy.allowedOrigins → Listed origins t t.port := by
        intro member
        obtain ⟨_,same,_,_,listed⟩ := only ⟨t,rfl,clean,scheme,member⟩
        cases same
        exact listed
      refine ⟨fun zero other => ?_,fun equal other => ?_⟩
      · have own := listed (allowed.mpr (Or.inr (Or.inl ⟨zero,other⟩)))
        rwa [zero] at own
      · have own := listed (allowed.mpr (Or.inr (Or.inr ⟨equal,other⟩)))
        rwa [equal] at own
    · intro apart
      constructor
      · rintro ⟨_,⟨⟩,clean,scheme,member⟩
        obtain ⟨ofZero,ofStandard⟩ := apart t rfl clean scheme
        refine ⟨t,rfl,clean,scheme,?_⟩
        rcases allowed.mp member with own | ⟨zero,other⟩ | ⟨equal,other⟩
        · exact own
        · rw [zero]
          exact ofZero zero other
        · rw [equal]
          exact ofStandard equal other
      · rintro ⟨_,⟨⟩,clean,scheme,listed⟩
        exact ⟨t,rfl,clean,scheme,allowed.mpr (Or.inl listed)⟩

/-- Origin matching is exact, and tells any two ports apart, but for a written port zero. -/
theorem origins_exact_iff {origins methods : List Str} {plaintext loopback privateAddresses : Bool}
    (built : fromOrigins origins methods plaintext loopback privateAddresses = .ok policy) (url : Str) :
    (policy.OriginExact origins url ↔ policy.ZeroKeptApart origins url) ∧
    ∀ other t t', target? url = some t → target? other = some t' → (t.origin = t'.origin ↔
      t.site = t'.site ∧ (t.port = t'.port ∨ t.port = 0 ∧ t'.port = t'.standard ∨ t.port = t.standard ∧ t'.port = 0)) :=
  ⟨policy.origin_exact_iff built url,fun _ _ _ found found' => origin_eq_iff found found'⟩

end DestinationPolicy

section Example

open DestinationPolicy

local instance exampleTables : Unicode := Unicode.asciiOnly

def exampleOrigins : List Str := ["https://api.example.org"]

def examplePolicy : DestinationPolicy where
  allowedOrigins := ["https://api.example.org:443"]

theorem examplePolicy_built : fromOrigins exampleOrigins [] false false false = .ok examplePolicy := by rfl

theorem origins_exact_iff_example :
    (examplePolicy.OriginExact exampleOrigins "https://API.example.org./v1" ↔
      examplePolicy.ZeroKeptApart exampleOrigins "https://API.example.org./v1") ∧
    ∀ other t t', target? "https://API.example.org./v1" = some t → target? other = some t' → (t.origin = t'.origin ↔
      t.site = t'.site ∧ (t.port = t'.port ∨ t.port = 0 ∧ t'.port = t'.standard ∨ t.port = t.standard ∧ t'.port = 0)) :=
  examplePolicy.origins_exact_iff examplePolicy_built "https://API.example.org./v1"

/-- A written port zero passes for the standard port. -/
theorem port_zero_allowed : fromOrigins exampleOrigins [] false false false = .ok examplePolicy ∧
    ¬ examplePolicy.OriginExact exampleOrigins "https://api.example.org:0/v1" := by
  refine ⟨examplePolicy_built,fun exact => ?_⟩
  have found : target? "https://api.example.org:0/v1" =
      some ⟨"https","api.example.org",some 0,443,false⟩ := by rfl
  have entry_ : entryTarget "https://api.example.org" = some ⟨"https","api.example.org",none,443,false⟩ := by rfl
  have past : ∃ authority, examplePolicy.originStep "https://api.example.org:0/v1" = .ok authority := ⟨_,by rfl⟩
  obtain ⟨t,there,_,_,entry,member,e,parsed,_,port⟩ := exact.mp past
  cases found.symm.trans there
  cases List.mem_singleton.mp member
  cases entry_.symm.trans parsed
  cases port

end Example

end ToolLayer.Policy
