import ToolLayer.Contracts.Refusals
import ToolLayer.Contracts.VersionGrammar
import ToolLayer.ControlPlane.Readable
import ToolLayer.Python.JsonParse

/-! The version suggested for the next publication: the maximum of what is published and
the order that the publication asks for. -/
namespace ToolLayer

/-- One of them is a release and the other its prerelease: the tuples do not compare. -/
def Clash (a b : ContractVersion) : Prop := sameCore a b = true ∧ a.prerelease.isSome ≠ b.prerelease.isSome

theorem Clash.symm {a b : ContractVersion} (clash : Clash a b) : Clash b a :=
  ⟨ControlPlane.sameCore_comm a b ▸ clash.1,Ne.symm clash.2⟩

theorem sameCore_iff {a b : ContractVersion} :
    sameCore a b = true ↔ a.major = b.major ∧ a.minor = b.minor ∧ a.patch = b.patch := by
  simp [sameCore,and_assoc]

theorem coreLess_iff {a b : ContractVersion} : coreLess a b = true ↔
    a.major < b.major ∨ a.major = b.major ∧ (a.minor < b.minor ∨ a.minor = b.minor ∧ a.patch < b.patch) := by
  simp [coreLess]

theorem coreLess_trans_not {a b c : ContractVersion} (first : coreLess b a = false) (second : coreLess c b = false) :
    coreLess c a = false := by
  rw [← Bool.not_eq_true] at first second ⊢
  rw [coreLess_iff] at first second ⊢
  omega

/-- Two versions that do not clash compare, and the greater of them has no smaller numbers. -/
theorem tupleGreater_of_apart {a b : ContractVersion} (apart : ¬ Clash a b) : ∃ greater,
    tupleGreater a b = .ok greater ∧ coreLess (if greater then a else b) a = false ∧
      coreLess (if greater then a else b) b = false := by
  have irrefl : ∀ v, coreLess v v = false := fun v => by simp [coreLess]
  unfold tupleGreater
  cases same : sameCore a b with
  | false =>
    refine ⟨_,rfl,?_⟩
    cases below : coreLess b a with
    | false => exact ⟨below,irrefl b⟩
    | true =>
      refine ⟨irrefl a,?_⟩
      change coreLess a b = false
      rw [← Bool.not_eq_true]
      rw [coreLess_iff] at below ⊢
      omega
  | true =>
    have level : coreLess a b = false ∧ coreLess b a = false := by
      rw [← Bool.not_eq_true,← Bool.not_eq_true,coreLess_iff,coreLess_iff]
      have numbers := sameCore_iff.mp same
      omega
    have either : ∀ greater : Bool, coreLess (if greater then a else b) a = false ∧
        coreLess (if greater then a else b) b = false := by
      intro greater
      cases greater with
      | false => exact ⟨level.2,irrefl b⟩
      | true => exact ⟨irrefl a,level.1⟩
    cases left : a.prerelease with
    | none =>
      cases right : b.prerelease with
      | none => exact ⟨false,rfl,either false⟩
      | some q => exact absurd ⟨same,by simp [left,right]⟩ apart
    | some p =>
      cases right : b.prerelease with
      | none => exact absurd ⟨same,by simp [left,right]⟩ apart
      | some q => exact ⟨_,rfl,either _⟩

theorem tupleGreater_of_clash {a b : ContractVersion} (clash : Clash a b) : tupleGreater a b = .error .typeError := by
  obtain ⟨same,different⟩ := clash
  rw [tupleGreater,same]
  cases left : a.prerelease with
  | none =>
    cases right : b.prerelease with
    | none => simp [left,right] at different
    | some q => rfl
  | some p =>
    cases right : b.prerelease with
    | none => rfl
    | some q => simp [left,right] at different

/-- A version after another one is the greater of the two, if they compare at all. -/
theorem tupleGreater_of_precedes {a b : ContractVersion} (order : Precedes a b) (apart : ¬ Clash b a) :
    tupleGreater b a = .ok true := by
  unfold Precedes comparePrecedence at order
  rw [tupleGreater,ControlPlane.sameCore_comm b a]
  cases same : sameCore a b with
  | false =>
    rw [same] at order
    cases below : coreLess a b with
    | false => simp [below] at order
    | true => rfl
  | true =>
    rw [same] at order
    have alike : b.prerelease.isSome = a.prerelease.isSome := by
      by_contra different
      exact apart ⟨ControlPlane.sameCore_comm a b ▸ same,different⟩
    cases left : a.prerelease with
    | none => cases right : b.prerelease <;> simp [left,right] at order
    | some p =>
      cases right : b.prerelease with
      | none => simp [left,right] at alike
      | some q =>
        simp only [left,right,Bool.not_true,Bool.false_eq_true,if_false] at order ⊢
        split at order
        next => simp at order
        next different =>
          split at order
          next below => simp [below,Ne.symm different]
          next => simp at order

/-- Between a prerelease and its release there are only prereleases. -/
theorem Clash.between {a b c : ContractVersion} (first : Precedes a b) (second : Precedes b c) (clash : Clash a c) :
    Clash a b ∨ Clash b c := by
  obtain ⟨same,different⟩ := clash
  have cores := sameCore_iff.mp same
  have within : ¬ coreLess b a = true ∧ ¬ coreLess c b = true := by
    unfold Precedes comparePrecedence at first second
    constructor
    · intro below
      rw [coreLess_iff] at below
      have apart : sameCore a b = false := by
        rw [← Bool.not_eq_true,sameCore_iff]
        omega
      have above : coreLess a b = false := by
        rw [← Bool.not_eq_true,coreLess_iff]
        omega
      simp [apart,above] at first
    · intro below
      rw [coreLess_iff] at below
      have apart : sameCore b c = false := by
        rw [← Bool.not_eq_true,sameCore_iff]
        omega
      have above : coreLess b c = false := by
        rw [← Bool.not_eq_true,coreLess_iff]
        omega
      simp [apart,above] at second
  rw [coreLess_iff,coreLess_iff] at within
  have left : sameCore a b = true := sameCore_iff.mpr (by omega)
  have right : sameCore b c = true := sameCore_iff.mpr (by omega)
  by_cases alike : a.prerelease.isSome = b.prerelease.isSome
  · exact Or.inr ⟨right,alike ▸ different⟩
  · exact Or.inl ⟨left,alike⟩

end ToolLayer

namespace ToolLayer.ControlPlane
open Python Kit Kit.Result

/-- A version that one of the texts stands for. -/
def Stands (published : List Str) (v : ContractVersion) : Prop := ∃ s ∈ published, parseVersion (.str s) = .ok v

/-- A release stands beside one of its own prereleases. -/
def Rereleased (published : List Str) : Prop := ∃ a b, Stands published a ∧ Stands published b ∧ Clash a b

/-- There is a suggestion, and a publication under it is not refused. -/
def Publishable (published : List Str) : Prop :=
  ∃ version, nextVersion published = .ok version ∧ rejectVersionRegression published version = .ok ()

/-- The tuples of the two compare. -/
def Comparable (s t : Str) : Prop := ∀ a b, parseVersion (.str s) = .ok a → parseVersion (.str t) = .ok b → ¬ Clash a b

theorem comparable_self (s : Str) : Comparable s s := by
  intro a b first second clash
  cases first.symm.trans second
  exact clash.2 rfl

theorem comparable_symm : Std.Symm Comparable := ⟨fun _ _ apart a b first second clash => apart b a second first clash.symm⟩

/-- What a connector's published versions all are. -/
structure Legible (published : List Str) : Prop where
  parses : ∀ s ∈ published, ∃ v, parseVersion (.str s) = .ok v
  short : ∀ s ∈ published, s.length ≤ 64

section Text

/-- `f"{major}.{minor}.0"` has those numbers. -/
theorem semverParts_release (major minor : Nat) :
    Patterns.semverParts (Decimal.natural major ++ Str.lit "." ++ Decimal.natural minor ++ Str.lit ".0") =
      some (Decimal.natural major,Decimal.natural minor,Str.lit "0",none) := by
  have whole := semverParts_text ⟨major,minor,0,[],fun _ none_ => nomatch none_⟩
  simpa [VersionShape.text,VersionShape.parts,tagText,prereleaseText,show Decimal.natural 0 = Str.lit "0" by decide,
    Str.lit] using whole

theorem parseVersion_release {major minor : Nat} (first : major < 10 ^ Decimal.maxDigits)
    (second : minor < 10 ^ Decimal.maxDigits) :
    parseVersion (.str (Decimal.natural major ++ Str.lit "." ++ Decimal.natural minor ++ Str.lit ".0")) =
      .ok ⟨major,minor,0,none⟩ := by
  have number : ∀ n, n < 10 ^ Decimal.maxDigits → decimalInt (Decimal.natural n) = .ok n := by
    intro n small
    rw [decimalInt,if_pos (Json.length_natural small),Json.digitsValue_natural]
  rw [parseVersion,semverMatch,semverParts_release]
  dsimp only
  rw [number major first,number minor second]
  rfl

/-- The numbers of a short version have few digits. -/
theorem parseVersion_bound {s : Str} {v : ContractVersion} (short : s.length ≤ 64)
    (parsed : parseVersion (.str s) = .ok v) : v.major < 10 ^ 64 ∧ v.minor < 10 ^ 64 := by
  have value : ∀ {t : Str} {n : Nat}, t.all CodePoint.isDigit = true → t.length ≤ s.length → decimalInt t = .ok n →
      n < 10 ^ 64 := by
    intro t n digits within read
    unfold decimalInt at read
    split at read
    next =>
      cases read
      exact (digitsValue_lt digits).trans_le (Nat.pow_le_pow_right (by omega) (within.trans short))
    next => cases read
  rw [parseVersion] at parsed
  split at parsed
  next => cases parsed
  next major minor patch prerelease matched =>
    obtain ⟨first,second⟩ := semverMatch_digits matched
    obtain ⟨one,two,_⟩ := semverMatch_length matched
    obtain ⟨a,readMajor,parsed⟩ := bind_eq_ok.mp parsed
    obtain ⟨b,readMinor,parsed⟩ := bind_eq_ok.mp parsed
    obtain ⟨_,_,parsed⟩ := bind_eq_ok.mp parsed
    cases parsed
    exact ⟨value first one readMajor,value second two readMinor⟩

end Text

section Maximum

variable {published : List Str}

/-- The maximum exists, and nothing has greater numbers. -/
theorem loop_higherVersion (legible : Legible published) (apart : ¬ Rereleased published) {rest : List Str}
    (part : ∀ s ∈ rest, s ∈ published) {best : Str × ContractVersion} (stands : Stands published best.2) :
    ∃ highest, loop higherVersion best rest = .ok highest ∧ Stands published highest.2 ∧
      coreLess highest.2 best.2 = false ∧ ∀ s ∈ rest, ∀ v, parseVersion (.str s) = .ok v → coreLess highest.2 v = false := by
  induction rest generalizing best with
  | nil => exact ⟨best,rfl,stands,by simp [coreLess],fun _ none_ => nomatch none_⟩
  | cons s rest ih =>
    rw [List.forall_mem_cons] at part
    obtain ⟨v,parsed⟩ := legible.parses s part.1
    have new : Stands published v := ⟨s,part.1,parsed⟩
    obtain ⟨greater,compared,aboveNew,aboveBest⟩ := tupleGreater_of_apart (fun clash => apart ⟨v,best.2,new,stands,clash⟩)
    have step : higherVersion best s = .ok (if greater then (s,v) else best) := by
      rw [higherVersion,parsed,ok_bind,compared,ok_bind]
      rfl
    have numbers : (if greater then (s,v) else best).2 = if greater then v else best.2 := by cases greater <;> rfl
    have kept : Stands published (if greater then (s,v) else best).2 := by
      cases greater with
      | false => exact stands
      | true => exact new
    obtain ⟨highest,ran,found,above,all⟩ := ih part.2 kept
    rw [numbers] at above
    refine ⟨highest,?_,found,coreLess_trans_not aboveBest above,?_⟩
    · rw [loop,step]
      exact ran
    · intro t member w read
      rcases List.mem_cons.mp member with same | later
      · rw [same,parsed] at read
        cases read
        exact coreLess_trans_not aboveNew above
      · exact all t later w read

/-- Without a clash the suggestion exists, in whatever order the versions come, and exceeds them all. -/
theorem publishable_of_apart (legible : Legible published) (apart : ¬ Rereleased published) : Publishable published := by
  cases published with
  | nil => exact ⟨"0.1.0",rfl,by decide⟩
  | cons first rest =>
    obtain ⟨v,parsed⟩ := legible.parses first List.mem_cons_self
    have stands : Stands (first::rest) ((first,v) : Str × ContractVersion).2 := ⟨first,List.mem_cons_self,parsed⟩
    obtain ⟨highest,ran,⟨s,member,read⟩,above,all⟩ := loop_higherVersion legible apart
      (fun s => List.mem_cons_of_mem first) stands
    obtain ⟨major,minor⟩ := parseVersion_bound (legible.short s member) read
    have least : (10 : Nat) ^ 64 < 10 ^ Decimal.maxDigits := Nat.pow_lt_pow_right (by omega) (by decide)
    have bumped : (highest.2.minor : Int) + 1 = ((highest.2.minor + 1 : Nat) : Int) := by omega
    refine ⟨Decimal.natural highest.2.major ++ Str.lit "." ++ Decimal.natural (highest.2.minor + 1) ++ Str.lit ".0",?_,?_⟩
    · rw [nextVersion,parsed,ok_bind,ran,ok_bind,str_natural (by omega),ok_bind,bumped,str_natural (by omega)]
      rfl
    · have greater : ∀ t ∈ first::rest, ∀ w, parseVersion (.str t) = .ok w →
          ¬ comparePrecedence ⟨highest.2.major,highest.2.minor + 1,0,none⟩ w ≤ 0 := by
        intro t inside w other
        have under : coreLess highest.2 w = false := by
          rcases List.mem_cons.mp inside with rfl | later
          · rw [parsed] at other
            cases other
            exact above
          · exact all t later w other
        rw [← Bool.not_eq_true,coreLess_iff] at under
        have different : sameCore ⟨highest.2.major,highest.2.minor + 1,0,none⟩ w = false := by
          rw [← Bool.not_eq_true,sameCore_iff]
          dsimp only
          omega
        have notBelow : coreLess ⟨highest.2.major,highest.2.minor + 1,0,none⟩ w = false := by
          rw [← Bool.not_eq_true,coreLess_iff]
          dsimp only
          omega
        simp [comparePrecedence,different,notBelow]
      have checked : loop (fun (_ : Unit) existing => do
          let parsed ← parseVersion (.str existing)
          refuse (decide (comparePrecedence ⟨highest.2.major,highest.2.minor + 1,0,none⟩ parsed ≤ 0))
            (toolLayerError .invalidRequest (Str.lit "version must be greater than the published version " ++ existing)
              (some "/version"))) () (first::rest) = .ok () := by
        rw [loop_unit_eq_ok]
        intro t inside
        obtain ⟨w,other⟩ := legible.parses t inside
        rw [other,ok_bind,decide_eq_false (greater t inside w other)]
        rfl
      rw [rejectVersionRegression,parseVersion_release (by omega) (by omega),ok_bind,checked]
      rfl

/-- In the order of their publication each version is the maximum of those up to it, so the
first one that clashes with its predecessor stops the search. -/
theorem apart_of_loop {rest : List Str} {first : Str} {v : ContractVersion} {highest : Str × ContractVersion}
    (increasing : (first::rest).Pairwise Ordered) (parsed : parseVersion (.str first) = .ok v)
    (ran : loop higherVersion (first,v) rest = .ok highest) : (first::rest).Pairwise Comparable := by
  induction rest generalizing first v with
  | nil => exact List.pairwise_singleton _ _
  | cons second rest ih =>
    obtain ⟨next,step,ran⟩ := loop_cons_eq_ok.mp ran
    rw [List.pairwise_cons] at increasing
    obtain ⟨a,w,parsed',read,order⟩ := increasing.1 second List.mem_cons_self
    rw [parsed] at parsed'
    cases parsed'
    rw [higherVersion,read,ok_bind] at step
    have apart : ¬ Clash w v := by
      intro clash
      rw [tupleGreater_of_clash clash] at step
      cases step
    rw [tupleGreater_of_precedes order apart] at step
    cases step
    have later := ih increasing.2 read ran
    refine List.pairwise_cons.mpr ⟨?_,later⟩
    intro t member a b readFirst readThird clash
    rw [parsed] at readFirst
    cases readFirst
    rcases List.mem_cons.mp member with rfl | further
    · rw [read] at readThird
      cases readThird
      exact apart clash.symm
    · obtain ⟨c,d,readSecond,readLast,above⟩ := (List.pairwise_cons.mp increasing.2).1 t further
      rw [read] at readSecond
      rw [readThird] at readLast
      cases readSecond
      cases readLast
      rcases clash.between order above with early | late
      · exact apart early.symm
      · exact (List.pairwise_cons.mp later).1 t further w b read readThird late

theorem apart_of_publishable (increasing : published.Pairwise Ordered) (publishable : Publishable published) :
    ¬ Rereleased published := by
  obtain ⟨version,chosen,_⟩ := publishable
  cases published with
  | nil =>
    rintro ⟨_,_,⟨_,member,_⟩,_⟩
    cases member
  | cons first rest =>
    obtain ⟨v,parsed,chosen⟩ := bind_eq_ok.mp chosen
    obtain ⟨highest,ran,_⟩ := bind_eq_ok.mp chosen
    have apart := apart_of_loop increasing parsed ran
    rintro ⟨a,b,⟨s,inS,readS⟩,⟨t,inT,readT⟩,clash⟩
    have := comparable_symm
    exact List.Pairwise.forall_of_forall (fun s _ => comparable_self s) apart inS inT a b readS readT clash

end Maximum

section Runs

variable [Pydantic] [Unicode] {setting : Setting}

/-- What a publication leaves is the version it checked, in a document of the schema's. -/
theorem legible_prepared {engine : SchemaEngine} {c : Connector} {d : ConnectorDraft} {p : Publication} {now : Timestamp}
    {version : Str} {row : PublishedVersion} (done : preparedVersion engine c d p now = .ok (version,row)) :
    (∃ v, parseVersion (.str version) = .ok v) ∧ version.length ≤ 64 := by
  constructor
  · obtain ⟨v,parsed,_⟩ := bind_eq_ok.mp (preparedVersion_eq_ok engine done).increasing
    exact ⟨v,parsed⟩
  · obtain ⟨review,built,_,made,_,_⟩ := preparedVersion_built done
    obtain ⟨url,_,published,_,_,_,shape,_⟩ := made.exists_tools
    have valid := made.valid
    rw [shape] at valid
    obtain ⟨_,_,_,versioned,schema,_,_⟩ := (validateConnectorDefinition_eq_ok engine).mp valid
    cases (Sides.requireContractVersion_iff.mp versioned).1
    obtain ⟨_,same,_,fields⟩ := Sides.object_first.mp (Sides.connectorShape_of_valid schema)
    cases same
    simp only [List.forall_mem_cons] at fields
    obtain ⟨_,_,_,_,⟨_,numbered,first⟩,_⟩ := fields
    cases numbered
    obtain ⟨⟨_,same,_,short⟩,_⟩ := first.1
    cases same
    exact short

/-- Every connector's published versions can be read. -/
def Database.Legible (db : Database) : Prop := ∀ key c, db.connector key = some c → ControlPlane.Legible c.publishedVersions

omit [Pydantic] [Unicode] in
theorem Database.Legible.putConnector {db : Database} (legible : db.Legible) {key : Str} {c : Connector}
    (new : ControlPlane.Legible c.publishedVersions) : (db.putConnector key c).Legible := by
  intro other found stored
  by_cases same : other = key
  · subst same
    rw [Database.connector_putConnector] at stored
    exact Option.some.inj stored ▸ new
  · rw [Database.connector_putConnector_other db c same] at stored
    exact legible other found stored

omit [Pydantic] [Unicode] in
theorem legible_nil : Legible [] := ⟨fun _ none_ => (nomatch none_),fun _ none_ => (nomatch none_)⟩

omit [Pydantic] [Unicode] in
theorem Legible.append {published : List Str} (legible : Legible published) {version : Str}
    (new : (∃ v, parseVersion (.str version) = .ok v) ∧ version.length ≤ 64) : Legible (published ++ [version]) := by
  constructor
  · simp only [List.mem_append,List.mem_singleton]
    rintro s (old | rfl)
    · exact legible.parses s old
    · exact new.1
  · simp only [List.mem_append,List.mem_singleton]
    rintro s (old | rfl)
    · exact legible.short s old
    · exact new.2

theorem legible_step {call : Call} {db next : Database} (legible : db.Legible) (done : call.run setting db = .ok next) :
    next.Legible := by
  obtain ⟨request,now⟩ := call
  cases request with
  | register r admitted =>
    obtain ⟨⟨_,d⟩,run,rfl⟩ := map_eq_ok.mp done
    obtain ⟨_,analysis,_,_,_,_,_,_,_,_,_,_,_,rfl⟩ := (registerConnector_eq_ok run).exists_analysis
    refine legible.putConnector ?_
    change Legible (Assoc.keys (registeredConnector db r analysis).versions)
    rw [registeredConnector_versions]
    cases found : db.connector r.connectorKey with
    | none => exact legible_nil
    | some c => exact legible _ c found
  | update u admitted =>
    obtain ⟨⟨_,d⟩,run,rfl⟩ := map_eq_ok.mp done
    obtain ⟨c,_,_,connector,_,_,_,_,_,_,rfl,rfl⟩ := (updateReview_eq_ok run).exists_draft
    exact legible.putConnector (show Legible (Assoc.keys c.versions) from legible _ c connector)
  | publish p admitted =>
    obtain ⟨⟨_,row⟩,run,rfl⟩ := map_eq_ok.mp done
    obtain ⟨c,published,_,version,_,connector,_,prepare,rfl,inserted,rfl⟩ :=
      (publishDraft_eq_ok setting.engine run).exists_draft
    obtain ⟨grown,_,_⟩ := Connector.insertVersion_eq_ok inserted
    refine legible.putConnector ?_
    have texts : Assoc.keys published.versions = Assoc.keys c.versions ++ [version] := by
      rw [grown,Assoc.keys,List.map_append]
      rfl
    change Legible (Assoc.keys published.versions)
    rw [texts]
    exact (legible _ c connector).append (legible_prepared prepare)
  | disable connectorKey version reason =>
    obtain ⟨⟨_,row⟩,run,rfl⟩ := map_eq_ok.mp done
    rcases disableVersion_eq_ok run with rfl | ⟨c,found,connector,there,_,rfl⟩
    · exact legible
    · refine legible.putConnector ?_
      change Legible (Assoc.keys (Assoc.set version row c.versions))
      have present : version ∈ Assoc.keys c.versions := List.mem_map_of_mem (Assoc.mem_of_get there)
      rw [Assoc.keys_set,if_pos present]
      exact legible _ c connector
  | createDeployment deploymentKey displayName description admitted =>
    obtain ⟨⟨_,d⟩,run,rfl⟩ := map_eq_ok.mp done
    obtain ⟨_,rfl⟩ := createDeployment_eq_ok run
    exact legible
  | createSnapshot deploymentKey selections createdBy signingKey =>
    obtain ⟨⟨_,row⟩,run,rfl⟩ := map_eq_ok.mp done
    obtain ⟨_,_,_,_,_,_,_,_,_,_,_,_,_,_,_,rfl⟩ := (createSnapshot_eq_ok run).exists_document
    exact legible

theorem legible_of_reachable {db : Database} (reached : Reachable setting db) : db.Legible :=
  reachable_keeps setting Database.Legible (fun _ _ none_ => nomatch none_) (fun _ _ _ => legible_step) reached

/-- A run of which every call is accepted. -/
theorem reachable_of_loop {calls : List Call} {db : Database}
    (ran : loop (fun db call => Call.run setting call db) Database.empty calls = .ok db) : Reachable setting db := by
  have run : ∀ (calls : List Call) (before : Database), loop (fun db call => Call.run setting call db) before calls = .ok db →
      runCalls setting before calls = db := by
    intro calls
    induction calls with
    | nil => exact fun _ ran => Except.ok.inj ran
    | cons call rest ih =>
      intro before ran
      obtain ⟨next,done,ran⟩ := loop_cons_eq_ok.mp ran
      rw [runCalls_cons,Call.after,done]
      exact ih next ran
  exact ⟨calls,run calls Database.empty ran⟩

/-- Registration finds a version to suggest, one that publication accepts, exactly while no
release is published beside its own prerelease; the order of the rows then does not matter. -/
theorem nextVersion_publishable_iff {db : Database} (reached : Reachable setting db) {key : Str} {c : Connector}
    (found : db.connector key = some c) : (Publishable c.publishedVersions ↔ ¬ Rereleased c.publishedVersions) ∧
      (¬ Rereleased c.publishedVersions → ∀ listed, listed.Perm c.publishedVersions → Publishable listed) := by
  have legible := legible_of_reachable reached key c found
  obtain ⟨calls,rfl⟩ := reached
  have increasing := (lifecycle setting calls).increasing key c found
  refine ⟨⟨apart_of_publishable increasing,publishable_of_apart legible⟩,fun apart listed same => ?_⟩
  refine publishable_of_apart ⟨fun s member => legible.parses s (same.mem_iff.mp member),
    fun s member => legible.short s (same.mem_iff.mp member)⟩ ?_
  rintro ⟨a,b,⟨s,inS,readS⟩,⟨t,inT,readT⟩,clash⟩
  exact apart ⟨a,b,⟨s,same.mem_iff.mp inS,readS⟩,⟨t,same.mem_iff.mp inT,readT⟩,clash⟩

end Runs

section Desk

local instance releaseTables : Unicode := Unicode.asciiOnly
local instance releaseFields : Pydantic := Pydantic.exact

def deskPublishAs (version : Str) (admitted : Publication.Accepts { deskPublication with version := some version }) : Call :=
  ⟨.publish { deskPublication with version := some version } admitted,deskTime⟩

/-- The calls are accepted one after the other and leave these versions. -/
def publishes (calls : List Call) (versions : List Str) : Bool :=
  okWith (fun db => (db.connector deskKey).any (fun c => c.publishedVersions == versions))
    (loop (fun db call => Call.run desk call db) Database.empty calls)

theorem exists_reached {calls : List Call} {versions : List Str} (ran : publishes calls versions = true) :
    ∃ db c, Reachable desk db ∧ db.connector deskKey = some c ∧ c.publishedVersions = versions := by
  obtain ⟨db,done,checked⟩ := exists_of_okWith ran
  obtain ⟨c,found,same⟩ := (Option.any_eq_true _ _).mp checked
  exact ⟨db,c,reachable_of_loop done,found,eq_of_beq same⟩

def prereleaseCalls : List Call := [deskRegisterOld,deskPublishAs "1.0.0-rc.1" (by decide)]

/-- The release itself follows. -/
def releaseCalls : List Call := prereleaseCalls ++ [deskRegisterOld,deskPublishAs "1.0.0" (by decide)]

/-- The runs, evaluated together. -/
def runsChecked : PLift ((publishes prereleaseCalls ["1.0.0-rc.1"] && publishes releaseCalls ["1.0.0-rc.1","1.0.0"]) = true) :=
  ⟨by decide +kernel⟩

theorem publishes_prerelease : publishes prereleaseCalls ["1.0.0-rc.1"] = true := (Bool.and_eq_true_iff.mp runsChecked.down).1

theorem publishes_release : publishes releaseCalls ["1.0.0-rc.1","1.0.0"] = true := (Bool.and_eq_true_iff.mp runsChecked.down).2

/-- A prerelease alone is followed by the next minor version. -/
theorem nextVersion_publishable_prerelease : ∃ db c, Reachable desk db ∧ db.connector deskKey = some c ∧
    c.publishedVersions = ["1.0.0-rc.1"] ∧ Publishable c.publishedVersions := by
  obtain ⟨db,c,reached,found,versions⟩ := exists_reached publishes_prerelease
  refine ⟨db,c,reached,found,versions,(nextVersion_publishable_iff reached found).1.mpr ?_⟩
  rw [versions]
  rintro ⟨a,b,⟨s,inS,readS⟩,⟨t,inT,readT⟩,clash⟩
  rw [List.mem_singleton] at inS inT
  subst inS inT
  cases readS.symm.trans readT
  exact clash.2 rfl

/-- Beside its release it ends every search for the next version in a `TypeError`. -/
theorem nextVersion_raises : ∃ db c, Reachable desk db ∧ db.connector deskKey = some c ∧
    nextVersion c.publishedVersions = .error .typeError := by
  obtain ⟨db,c,reached,found,versions⟩ := exists_reached publishes_release
  refine ⟨db,c,reached,found,?_⟩
  rw [versions]
  decide

end Desk

end ToolLayer.ControlPlane
