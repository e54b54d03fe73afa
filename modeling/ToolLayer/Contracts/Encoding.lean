import ToolLayer.Contracts.CanonicalJson
import ToolLayer.Python.Alike
import ToolLayer.Python.JsonParse

/-! The canonical text stands for one JSON value, and a digest for one content. -/
namespace ToolLayer
open Python Kit Kit.Result

/-- Null, booleans, integers and text without lone surrogates. -/
def leafListed : Value → Bool
  | .float _ => false
  | .other _ _ _ => false
  | .str s => s.scalar
  | _ => true

/-- A JSON value without fractions; the keys of an object differ. -/
structure Listed (v : Value) : Prop where
  leaves : v.every leafListed Str.scalar = true
  distinct : v.distinct = true

namespace Listed

variable {v : Value}

theorem serializable (listed : Listed v) : serializable v = true := by
  refine Value.every_of_every (fun v leaf => ?_) (fun _ _ => rfl) listed.leaves
  cases v with
  | float x => cases leaf
  | other kind repr json => cases leaf
  | _ => rfl

theorem scalar (listed : Listed v) : v.scalar = true := by
  refine Value.every_of_every (fun v leaf => ?_) (fun _ plain => plain) listed.leaves
  cases v with
  | str s => exact leaf
  | _ => rfl

theorem isJson (listed : Listed v) : v.isJson = true := by
  have leaves := listed.leaves
  clear listed
  induction v using Value.induct with
  | list items ih =>
    rw [Value.every_list] at leaves
    exact Value.isJson_list.mpr (fun v member => ih v member (leaves v member))
  | dict members ih =>
    rw [Value.every_dict] at leaves
    exact Value.isJson_dict.mpr (fun m member => ih m member (leaves m member).2)
  | other kind repr json ih => cases leaves
  | _ => rfl

theorem plain (listed : Listed v) (short : writable v = true) : Json.Plain v := by
  refine Value.every_of_every (fun v leaf => ?_) (fun _ _ => rfl) (Value.every_and listed.leaves short)
  rw [Bool.and_eq_true] at leaf
  cases v with
  | int n => exact leaf.2
  | float x => cases leaf.1
  | other kind repr json => cases leaf.1
  | _ => rfl

theorem sorted (listed : Listed v) : Listed v.sorted :=
  ⟨(Value.every_sorted (fun _ _ _ => rfl) v).trans listed.leaves,Value.distinct_sorted listed.distinct⟩

theorem canonical (listed : Listed v) (short : writable v = true) : Canonical v :=
  ⟨listed.serializable,short,listed.scalar⟩

end Listed

theorem canonicalJson_eq_ok {v : Value} (canonical : Canonical v) :
    canonicalJson v = .ok (Json.render canonicalOptions v.sorted) := by
  have good : Json.Writable Failure canonicalOptions v :=
    writable_canonicalOptions.mpr ⟨canonical.1,canonical.2.1⟩
  rw [canonicalJson,assertSerializable_eq_ok.mpr canonical.1,ok_bind,
    dumps_eq_ok.mpr ⟨Json.writable_sorted.mpr good,rfl⟩]

theorem canonicalJson_inj {v w : Value} (canonical : Canonical v) (other : Canonical w) :
    canonicalJson v = canonicalJson w ↔ Value.Same v w := by
  rw [canonicalJson_eq_ok canonical,canonicalJson_eq_ok other,Except.ok.injEq]
  constructor
  · have good : Json.Writable Failure canonicalOptions v :=
      writable_canonicalOptions.mpr ⟨canonical.1,canonical.2.1⟩
    have otherGood : Json.Writable Failure canonicalOptions w :=
      writable_canonicalOptions.mpr ⟨other.1,other.2.1⟩
    exact Json.render_injective compact_canonicalOptions (Json.writable_sorted.mpr good)
      (Json.writable_sorted.mpr otherGood)
  · exact congrArg (Json.render canonicalOptions)

/-- Strict parsing undoes `canonical_json`, the order of keys aside. -/
theorem loads_canonicalJson (h : Json.Hooks) {v : Value} (listed : Listed v) (short : writable v = true) :
    ∃ text, canonicalJson v = .ok text ∧ (Json.loads h text : Except PyExc Value) = .ok v.sorted :=
  ⟨_,canonicalJson_eq_ok (listed.canonical short),
    Json.loads_render h compact_canonicalOptions (Json.plain_sorted.mpr (listed.plain short))
      (Value.distinct_sorted listed.distinct)⟩

section Digests

/-- `content_digest` of any document. -/
def contentDigestOf (document : Value) (exclude : List Str) : Except PyExc Str :=
  match document,exclude with
  | document,[] => do
    let data ← canonicalBytes document
    return digestOf data
  | .dict members,exclude => contentDigest members exclude
  | _,_ => .error (canonicalJsonError "exclude is only meaningful for object documents")

/-- What of a document its digest is about. -/
def contentOf (document : Value) (exclude : List Str) : Value :=
  match document with
  | .dict members => .dict (Dict.without members exclude)
  | other => other

/-- Only an object has members to exclude. -/
def Excludable (document : Value) (exclude : List Str) : Prop := exclude = [] ∨ ∃ members, document = .dict members

theorem contentOf_nil (document : Value) : contentOf document [] = document := by
  cases document with
  | dict members => simp [contentOf,Dict.without]
  | _ => rfl

theorem contentDigestOf_eq {document : Value} {exclude : List Str} (excludable : Excludable document exclude) :
    contentDigestOf document exclude = (canonicalBytes (contentOf document exclude)).map digestOf := by
  cases exclude with
  | nil =>
    rw [contentOf_nil,contentDigestOf]
    cases canonicalBytes document <;> rfl
  | cons name names =>
    obtain ⟨members,rfl⟩ := excludable.resolve_left (by simp)
    rw [contentOf,contentDigestOf]
    · rw [contentDigest]
      cases canonicalBytes (.dict (Dict.without members (name::names))) <;> rfl
    · simp

theorem Listed.content {v : Value} (listed : Listed v) (exclude : List Str) : Listed (contentOf v exclude) := by
  cases v with
  | dict members =>
    obtain ⟨leaves,distinct⟩ := listed
    rw [Value.every_dict] at leaves
    rw [Value.distinct_dict] at distinct
    refine ⟨Value.every_dict.mpr (fun m member => leaves m (List.mem_of_mem_filter member)),
      Value.distinct_dict.mpr ⟨?_,fun m member => distinct.2 m (List.mem_of_mem_filter member)⟩⟩
    exact (List.filter_sublist.map Prod.fst).nodup distinct.1
  | _ => exact listed

theorem writable_content {v : Value} (short : writable v = true) (exclude : List Str) :
    writable (contentOf v exclude) = true := by
  cases v with
  | dict members =>
    rw [writable,Value.every_dict] at short
    exact Value.every_dict.mpr (fun m member => short m (List.mem_of_mem_filter member))
  | _ => exact short

/-- The texts of two values have different digests, unless they are one text. -/
def DigestsApart (v w : Value) : Prop :=
  ∀ data other, canonicalBytes v = .ok data → canonicalBytes w = .ok other →
    Sha256.hexdigest data = Sha256.hexdigest other → data = other

theorem contentDigestOf_inj {v w : Value} {exclude : List Str} (excludable : Excludable v exclude)
    (otherExcludable : Excludable w exclude) (canonical : Canonical (contentOf v exclude))
    (other : Canonical (contentOf w exclude)) (apart : DigestsApart (contentOf v exclude) (contentOf w exclude)) :
    contentDigestOf v exclude = contentDigestOf w exclude ↔
      Value.Same (contentOf v exclude) (contentOf w exclude) := by
  obtain ⟨data,taken⟩ := exists_canonicalBytes.mpr canonical
  obtain ⟨otherData,otherTaken⟩ := exists_canonicalBytes.mpr other
  rw [contentDigestOf_eq excludable,contentDigestOf_eq otherExcludable,taken,otherTaken]
  constructor
  · intro same
    have digests := List.append_cancel_left (Except.ok.inj same)
    have equal := apart data otherData taken otherTaken digests
    exact canonicalBytes_inj (equal ▸ taken) otherTaken
  · intro same
    have texts := (canonicalJson_inj canonical other).mpr same
    have bytes : canonicalBytes (contentOf v exclude) = canonicalBytes (contentOf w exclude) := by
      rw [canonicalBytes,canonicalBytes,texts]
    rw [taken,otherTaken] at bytes
    rw [Except.ok.inj bytes]

end Digests

/-- The text of a value reads back as the value, values with one text are alike, and a digest
is about exactly the content that is not excluded. -/
theorem canonicalJson_faithful (h : Json.Hooks) {a b : Value} (listed : Listed a) (short : writable a = true)
    (other : Listed b) (otherShort : writable b = true) :
    (∃ text v, canonicalJson a = .ok text ∧ (Json.loads h text : Except PyExc Value) = .ok v ∧ v.Alike a) ∧
      (canonicalJson a = canonicalJson b ↔ a.Alike b) ∧
      ∀ exclude, Excludable a exclude → Excludable b exclude → DigestsApart (contentOf a exclude) (contentOf b exclude) →
        (contentDigestOf a exclude = contentDigestOf b exclude ↔
          (contentOf a exclude).Alike (contentOf b exclude)) := by
  refine ⟨?_,?_,fun exclude excludable otherExcludable apart => ?_⟩
  · obtain ⟨text,written,read⟩ := loads_canonicalJson h listed short
    exact ⟨text,_,written,read,Value.alike_of_same listed.sorted.isJson (Value.sorted_sorted a)⟩
  · rw [canonicalJson_inj (listed.canonical short) (other.canonical otherShort),
      Value.alike_iff_same listed.isJson listed.distinct]
  · have part := listed.content exclude
    have otherPart := other.content exclude
    rw [contentDigestOf_inj excludable otherExcludable (part.canonical (writable_content short exclude))
        (otherPart.canonical (writable_content otherShort exclude)) apart,
      Value.alike_iff_same part.isJson part.distinct]

/-- An object, and the same one in another order with another signature. -/
theorem canonicalJson_faithful_shuffled :
    let hooks : Json.Hooks := ⟨fun _ => ⟨"0.0",by decide⟩,fun _ => none⟩
    let items : Value := .list [.int (-7),.null,.str "\n\\"]
    let first : Value := .dict [(Str.lit "b",items),(Str.lit "a",.dict []),(Str.lit "signature",.bool true)]
    let second : Value := .dict [(Str.lit "signature",.bool false),(Str.lit "a",.dict []),(Str.lit "b",items)]
    (∃ text v, canonicalJson first = .ok text ∧ (Json.loads hooks text : Except PyExc Value) = .ok v ∧ v.Alike first) ∧
      canonicalJson first ≠ canonicalJson second ∧
      contentDigestOf first ["signature"] = contentDigestOf second ["signature"] := by
  intro hooks items first second
  obtain ⟨reads,texts,digests⟩ := canonicalJson_faithful hooks (a := first) (b := second)
    ⟨by decide +kernel,by decide +kernel⟩ (by decide +kernel) ⟨by decide +kernel,by decide +kernel⟩ (by decide +kernel)
  have moved : canonicalBytes (contentOf first ["signature"]) = canonicalBytes (contentOf second ["signature"]) := by
    decide +kernel
  refine ⟨reads,?_,?_⟩
  · decide +kernel
  · refine (digests ["signature"] (Or.inr ⟨_,rfl⟩) (Or.inr ⟨_,rfl⟩) ?_).mpr ?_
    · intro data other taken otherTaken _
      rw [moved,otherTaken] at taken
      exact (Except.ok.inj taken).symm
    · exact .dict (List.Perm.swap _ _ _) rfl (.cons (.refl _) (.cons (.refl _) .nil))

theorem canonicalJson_long {n : Int} (long : Decimal.printable n = false) :
    canonicalJson (.int n) = .error .valueError := by
  rw [canonicalJson,assertSerializable_eq_ok.mpr rfl,ok_bind,Value.sorted,Json.dumps,Json.unwritable,long]
  rfl

/-- An integer of 4301 digits has no text. -/
theorem canonicalJson_refuses_digits :
    ¬ ∀ a, Listed a → ∃ text, canonicalJson a = .ok text := by
  intro every
  obtain ⟨text,written⟩ := every (.int ((10 ^ Decimal.maxDigits : Nat) : Int)) ⟨rfl,rfl⟩
  have long : Decimal.printable ((10 ^ Decimal.maxDigits : Nat) : Int) = false := by
    rw [Decimal.printable,Int.natAbs_natCast,decide_eq_false_iff_not]
    exact Nat.lt_irrefl _
  rw [canonicalJson_long long] at written
  cases written

end ToolLayer
