import Mathlib.Order.Defs.Unbundled
import ToolLayer.ControlPlane.Suggestion

/-! The order publications follow, beside the precedence of Semantic Versioning 2.0.0. They
differ on two prereleases of one release. -/
namespace ToolLayer
open Python Kit Kit.Result

section Orders

/-- Precedence, given how two prereleases of one release compare. -/
def PrecedesBy (less : Str → Str → Prop) (v w : ContractVersion) : Prop :=
  coreLess v w = true ∨ sameCore v w = true ∧
    ((∃ p, v.prerelease = some p ∧ w.prerelease = none) ∨
      ∃ p q, v.prerelease = some p ∧ w.prerelease = some q ∧ less p q)

/-- Whole texts in code point order. -/
def TextLess (p q : Str) : Prop := Str.le p q = true ∧ p ≠ q

/-- Numbers compare by value and come before all other identifiers, which compare in ASCII order. -/
def identifierLess (a b : Str) : Bool :=
  match a.all CodePoint.isDigit,b.all CodePoint.isDigit with
  | true,true => decide (Str.digitsValue a < Str.digitsValue b)
  | true,false => true
  | false,true => false
  | false,false => Str.le a b && a != b

/-- The first identifiers that differ decide; where there are none, the shorter list comes first. -/
def identifiersLess : List Str → List Str → Bool
  | _,[] => false
  | [],_::_ => true
  | a::as,b::bs => identifierLess a b || (!identifierLess b a && identifiersLess as bs)

/-- The order of two prereleases in Semantic Versioning 2.0.0. -/
def TagLess (p q : Str) : Prop :=
  identifiersLess (Str.split p (CodePoint.ofChar '.')) (Str.split q (CodePoint.ofChar '.')) = true

variable {less : Str → Str → Prop} {a b c : ContractVersion}

theorem precedesBy_of_core (apart : sameCore a b = false) : PrecedesBy less a b ↔ coreLess a b = true := by
  rw [PrecedesBy,apart]
  simp

theorem precedesBy_irrefl (irrefl : ∀ p, ¬ less p p) (a : ContractVersion) : ¬ PrecedesBy less a a := by
  rintro (core | ⟨_,⟨p,tagged,release⟩ | ⟨p,q,first,second,order⟩⟩)
  · rw [coreLess_iff] at core
    omega
  · cases tagged.symm.trans release
  · cases first.symm.trans second
    exact irrefl p order

theorem precedesBy_trans (trans : ∀ p q r, less p q → less q r → less p r) (first : PrecedesBy less a b)
    (second : PrecedesBy less b c) : PrecedesBy less a c := by
  simp only [PrecedesBy,coreLess_iff,sameCore_iff] at first second ⊢
  rcases first with core | ⟨same,tags⟩
  · rcases second with next | ⟨next,_⟩
    · left
      omega
    · left
      omega
  · rcases second with next | ⟨next,more⟩
    · left
      omega
    · refine Or.inr ⟨by omega,?_⟩
      rcases tags with ⟨p,_,release⟩ | ⟨p,q,tagged,middle,order⟩
      · rcases more with ⟨q,found,_⟩ | ⟨q,r,found,_,_⟩ <;> cases release.symm.trans found
      · rcases more with ⟨q',found,release⟩ | ⟨q',r,found,last,order'⟩
        · exact Or.inl ⟨p,tagged,release⟩
        · cases middle.symm.trans found
          exact Or.inr ⟨p,r,tagged,last,trans p q r order order'⟩

theorem precedesBy_trichotomous (decides : ∀ p q, less p q ∨ p = q ∨ less q p) (a b : ContractVersion) :
    PrecedesBy less a b ∨ a = b ∨ PrecedesBy less b a := by
  cases same : sameCore a b with
  | false =>
    have other : sameCore b a = false := (ControlPlane.sameCore_comm b a).trans same
    rw [precedesBy_of_core same,precedesBy_of_core other]
    cases less_ : coreLess a b with
    | true => exact Or.inl rfl
    | false => exact Or.inr (Or.inr (ControlPlane.coreLess_of_not same less_))
  | true =>
    have other : sameCore b a = true := (ControlPlane.sameCore_comm b a).trans same
    cases left : a.prerelease with
    | none =>
      cases right : b.prerelease with
      | none =>
        obtain ⟨major,minor,patch⟩ := sameCore_iff.mp same
        obtain ⟨_,_,_,_⟩ := a
        obtain ⟨_,_,_,_⟩ := b
        simp only at major minor patch left right
        subst major minor patch left right
        exact Or.inr (Or.inl rfl)
      | some q => exact Or.inr (Or.inr (Or.inr ⟨other,Or.inl ⟨q,right,left⟩⟩))
    | some p =>
      cases right : b.prerelease with
      | none => exact Or.inl (Or.inr ⟨same,Or.inl ⟨p,left,right⟩⟩)
      | some q =>
        rcases decides p q with order | rfl | order
        · exact Or.inl (Or.inr ⟨same,Or.inr ⟨p,q,left,right,order⟩⟩)
        · obtain ⟨major,minor,patch⟩ := sameCore_iff.mp same
          obtain ⟨_,_,_,_⟩ := a
          obtain ⟨_,_,_,_⟩ := b
          simp only at major minor patch left right
          subst major minor patch left right
          exact Or.inr (Or.inl rfl)
        · exact Or.inr (Or.inr (Or.inr ⟨other,Or.inr ⟨q,p,right,left,order⟩⟩))

/-- How prereleases compare matters for two prereleases of one release alone. -/
theorem precedesBy_congr {other : Str → Str → Prop}
    (apart : sameCore a b = false ∨ a.prerelease = none ∨ b.prerelease = none) :
    PrecedesBy less a b ↔ PrecedesBy other a b := by
  rcases apart with apart | release | release
  · rw [precedesBy_of_core apart,precedesBy_of_core apart]
  · simp [PrecedesBy,release]
  · simp [PrecedesBy,release]

theorem textLess_irrefl (p : Str) : ¬ TextLess p p := fun order => order.2 rfl

theorem textLess_trans (p q r : Str) (first : TextLess p q) (second : TextLess q r) : TextLess p r := by
  refine ⟨Str.le_trans first.1 second.1,?_⟩
  rintro rfl
  exact first.2 (Str.le_antisymm first.1 second.1)

theorem textLess_trichotomous (p q : Str) : TextLess p q ∨ p = q ∨ TextLess q p := by
  by_cases same : p = q
  · exact Or.inr (Or.inl same)
  · rcases Str.le_total p q with order | order
    · exact Or.inl ⟨order,same⟩
    · exact Or.inr (Or.inr ⟨order,Ne.symm same⟩)

instance : IsStrictTotalOrder ContractVersion (PrecedesBy TextLess) where
  irrefl := precedesBy_irrefl textLess_irrefl
  trans _ _ _ := precedesBy_trans textLess_trans
  trichotomous a b := by
    intro first second
    rcases precedesBy_trichotomous textLess_trichotomous a b with order | same | order
    · exact absurd order first
    · exact same
    · exact absurd order second

theorem precedes_iff : Precedes a b ↔ PrecedesBy TextLess a b := by
  rw [Precedes,comparePrecedence]
  cases same : sameCore a b with
  | false =>
    rw [precedesBy_of_core same]
    cases coreLess a b <;> simp
  | true =>
    have core : coreLess a b = false := by
      rw [← Bool.not_eq_true,coreLess_iff]
      have equal := sameCore_iff.mp same
      omega
    cases left : a.prerelease with
    | none => cases right : b.prerelease <;> simp [PrecedesBy,core,left,right]
    | some p =>
      cases right : b.prerelease with
      | none => simp [PrecedesBy,core,same,left,right]
      | some q =>
        simp only [PrecedesBy,core,same,left,right,TextLess]
        by_cases equal : p = q
        · simp [equal]
        · cases order : Str.le p q <;> simp [equal,order]

theorem comparePrecedence_swap (a b : ContractVersion) : comparePrecedence b a = -comparePrecedence a b := by
  rw [comparePrecedence,comparePrecedence,ControlPlane.sameCore_comm b a]
  cases same : sameCore a b with
  | false =>
    cases less_ : coreLess a b with
    | true =>
      have other : coreLess b a = false := by
        rw [← Bool.not_eq_true]
        rw [coreLess_iff] at less_ ⊢
        omega
      simp [other]
    | false => simp [ControlPlane.coreLess_of_not same less_]
  | true =>
    cases left : a.prerelease with
    | none => cases right : b.prerelease <;> simp
    | some p =>
      cases right : b.prerelease with
      | none => simp
      | some q =>
        by_cases equal : p = q
        · simp [equal]
        · rcases textLess_trichotomous p q with order | same | order
          · have other : Str.le q p = false := by
              rw [← Bool.not_eq_true]
              exact fun back => order.2 (Str.le_antisymm order.1 back)
            simp [equal,Ne.symm equal,order.1,other]
          · exact absurd same equal
          · have other : Str.le p q = false := by
              rw [← Bool.not_eq_true]
              exact fun back => order.2 (Str.le_antisymm order.1 back)
            simp [equal,Ne.symm equal,order.1,other]

/-- The sign of a comparison says which of three cases holds. -/
theorem comparePrecedence_iff (a b : ContractVersion) : (comparePrecedence a b < 0 ↔ PrecedesBy TextLess a b) ∧
    (comparePrecedence a b = 0 ↔ a = b) ∧ (0 < comparePrecedence a b ↔ PrecedesBy TextLess b a) := by
  have swap := comparePrecedence_swap a b
  have greater : 0 < comparePrecedence a b ↔ PrecedesBy TextLess b a := by
    rw [← precedes_iff,Precedes]
    omega
  refine ⟨precedes_iff,?_,greater⟩
  constructor
  · intro zero
    rcases precedesBy_trichotomous textLess_trichotomous a b with order | same | order
    · have negative : comparePrecedence a b < 0 := precedes_iff.mpr order
      omega
    · exact same
    · have positive := greater.mpr order
      omega
  · rintro rfl
    omega

end Orders

namespace ControlPlane

section Publications

/-- A version above everything published is let through. -/
theorem rejectVersionRegression_of_above {published : List Str} {version : Str} {w : ContractVersion}
    (parses : ∀ s ∈ published, ∃ v, parseVersion (.str s) = .ok v) (parsed : parseVersion (.str version) = .ok w)
    (above : ∀ s ∈ published, ∀ v, parseVersion (.str s) = .ok v → PrecedesBy TextLess v w) :
    rejectVersionRegression published version = .ok () := by
  have each : loop (fun (_ : Unit) existing => do
      let parsed ← parseVersion (.str existing)
      refuse (decide (comparePrecedence w parsed ≤ 0)) (toolLayerError .invalidRequest
        (Str.lit "version must be greater than the published version " ++ existing) (some "/version"))) () published =
        .ok () := by
    refine loop_unit_eq_ok.mpr (fun s member => ?_)
    obtain ⟨v,read⟩ := parses s member
    have positive := (comparePrecedence_iff w v).2.2.mpr (above s member v read)
    rw [read,ok_bind]
    exact refuse_eq_ok.mpr (decide_eq_false (by omega))
  rw [rejectVersionRegression,parsed,ok_bind,each]
  rfl

variable [Pydantic] [Unicode]

/-- One published version comes before another. -/
def PublishedBefore (less : Str → Str → Prop) (s t : Str) : Prop :=
  ∃ v w, parseVersion (.str s) = .ok v ∧ parseVersion (.str t) = .ok w ∧ PrecedesBy less v w

/-- What a run leaves: published versions in order, and every version above them still free. -/
structure InOrder (less : Str → Str → Prop) (db : Database) : Prop where
  increasing : ∀ key c, db.connector key = some c → c.publishedVersions.Pairwise (PublishedBefore less)
  free : ∀ key c version w, db.connector key = some c → parseVersion (.str version) = .ok w →
    (∀ s ∈ c.publishedVersions, ∀ v, parseVersion (.str s) = .ok v → PrecedesBy less v w) →
    rejectVersionRegression c.publishedVersions version = .ok ()

/-- Publications follow a strict total order, the one `compare_precedence` decides: that of Semantic
Versioning but for two prereleases of one release, which compare as texts. -/
theorem publications_inOrder : (∀ (setting : Setting) (calls : List Call),
      InOrder TextLess (runCalls setting Database.empty calls)) ∧
    IsStrictTotalOrder ContractVersion (PrecedesBy TextLess) ∧
    (∀ a b : ContractVersion, (comparePrecedence a b < 0 ↔ PrecedesBy TextLess a b) ∧
      (comparePrecedence a b = 0 ↔ a = b) ∧ (0 < comparePrecedence a b ↔ PrecedesBy TextLess b a)) ∧
    ∀ a b : ContractVersion, sameCore a b = false ∨ a.prerelease = none ∨ b.prerelease = none →
      (PrecedesBy TextLess a b ↔ PrecedesBy TagLess a b) := by
  refine ⟨fun setting calls => ⟨?_,?_⟩,inferInstance,comparePrecedence_iff,fun a b => precedesBy_congr⟩
  · intro key c found
    refine ((lifecycle setting calls).increasing key c found).imp ?_
    rintro s t ⟨v,w,first,second,order⟩
    exact ⟨v,w,first,second,precedes_iff.mp order⟩
  · intro key c version w found parsed above
    have legible := legible_of_reachable ⟨calls,rfl⟩ key c found
    exact rejectVersionRegression_of_above legible.parses parsed above

end Publications

section Desk

local instance candidateTables : Unicode := Unicode.asciiOnly
local instance candidateFields : Pydantic := Pydantic.exact

/-- The ninth release candidate after the tenth. -/
def candidateCalls : List Call := [deskRegisterOld,deskPublishAs "1.0.0-rc.10" (by decide +kernel),deskRegisterOld,
  deskPublishAs "1.0.0-rc.9" (by decide)]

def candidatesChecked : PLift (publishes candidateCalls ["1.0.0-rc.10","1.0.0-rc.9"] = true) := ⟨by decide +kernel⟩

/-- In Semantic Versioning the tenth candidate comes after the ninth. Here it may be published before
it, and is refused after it. -/
theorem candidates_out_of_order : ∃ db c, Reachable desk db ∧ db.connector deskKey = some c ∧
    ¬ c.publishedVersions.Pairwise (PublishedBefore TagLess) ∧
    rejectVersionRegression ["1.0.0-rc.9"] "1.0.0-rc.10" ≠ .ok () ∧
    PrecedesBy TagLess ⟨1,0,0,some "rc.9"⟩ ⟨1,0,0,some "rc.10"⟩ := by
  have order : PrecedesBy TagLess ⟨1,0,0,some "rc.9"⟩ ⟨1,0,0,some "rc.10"⟩ :=
    Or.inr ⟨rfl,Or.inr ⟨_,_,rfl,rfl,by unfold TagLess; decide +kernel⟩⟩
  obtain ⟨db,c,reached,found,versions⟩ := exists_reached candidatesChecked.down
  refine ⟨db,c,reached,found,?_,by decide +kernel,order⟩
  rw [versions]
  intro increasing
  obtain ⟨v,w,first,second,before⟩ := List.rel_of_pairwise_cons increasing List.mem_cons_self
  have tenth : parseVersion (.str "1.0.0-rc.10") = .ok ⟨1,0,0,some "rc.10"⟩ := by decide +kernel
  have ninth : parseVersion (.str "1.0.0-rc.9") = .ok ⟨1,0,0,some "rc.9"⟩ := by decide +kernel
  cases first.symm.trans tenth
  cases second.symm.trans ninth
  rcases before with core | ⟨_,⟨p,_,release⟩ | ⟨p,q,left,right,less⟩⟩
  · exact absurd core (by decide)
  · cases release
  · cases left
    cases right
    exact absurd less (by unfold TagLess; decide +kernel)

end Desk

end ControlPlane

end ToolLayer
