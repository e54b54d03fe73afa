import ToolLayer.Contracts.Errors
import ToolLayer.Kit.Result
import ToolLayer.Python.JsonText
import ToolLayer.Python.Sha256

/-! Canonical serialisation and content digests. -/
namespace ToolLayer
open Python Kit Kit.Result

def canonicalJsonError (message : Str) : PyExc := .own (.canonicalJson message)

def placeOf (path : Str) : Str := if path.isEmpty then "<root>" else path

mutual
/-- `_assert_serializable`. -/
def assertSerializable : Value → Str → Except PyExc Unit
  | .float x,path =>
    match x.number with
    | .finite _ _ => .ok ()
    | _ => .error (canonicalJsonError (Str.lit "non-finite number at " ++ placeOf path))
  | .list items,path => assertItems items path 0
  | .dict members,path => assertMembers members path
  | .other _ _ _,path => .error (canonicalJsonError (Str.lit "unsupported type at " ++ placeOf path))
  | _,_ => .ok ()
def assertItems : List Value → Str → Nat → Except PyExc Unit
  | [],_,_ => .ok ()
  | item::rest,path,index =>
    match assertSerializable item (path ++ CodePoint.ofChar '/' :: Decimal.natural index) with
    | .ok _ => assertItems rest path (index + 1)
    | .error e => .error e
def assertMembers : Dict → Str → Except PyExc Unit
  | [],_ => .ok ()
  | (key,value)::rest,path =>
    match assertSerializable value (path ++ CodePoint.ofChar '/' :: key) with
    | .ok _ => assertMembers rest path
    | .error e => .error e
end

/-- The separators of `canonical_json`. -/
def canonicalOptions : Json.Options := ⟨",",":",false⟩

def canonicalJson (document : Value) : Except PyExc Str := do
  assertSerializable document []
  Json.dumps canonicalOptions document.sorted

def canonicalBytes (document : Value) : Except PyExc Bytes := do
  let text ← canonicalJson document
  Utf8.encode text

def digestPrefix : Str := "sha256:"

def digestOf (data : Bytes) : Str := digestPrefix ++ Sha256.hexdigest data

/-- `content_digest` of an object, without the excluded members. -/
def contentDigest (document : Dict) (exclude : List Str) : Except PyExc Str := do
  let data ← canonicalBytes (.dict (Dict.without document exclude))
  return digestOf data

/-- `SNAPSHOT_DIGEST_EXCLUDED`. -/
def snapshotDigestExcluded : List Str := ["snapshot_id","snapshot_digest","signature"]

/-- `verify_digest`: only a `CanonicalJsonError` becomes `False`. -/
def verifyDigest (document : Dict) (expected : Value) (exclude : List Str) : Except PyExc Bool :=
  match expected with
  | .str s =>
    if Str.startsWith s digestPrefix then
      match contentDigest document exclude with
      | .ok actual => .ok (actual == s)
      | .error (.own (.canonicalJson _)) => .ok false
      | .error e => .error e
    else .ok false
  | _ => .ok false

theorem verifyDigest_eq_true {document : Dict} {declared : Str} {exclude : List Str} :
    verifyDigest document (.str declared) exclude = .ok true ↔
      Str.startsWith declared digestPrefix = true ∧ contentDigest document exclude = .ok declared := by
  unfold verifyDigest
  dsimp only
  split
  next tagged =>
    split
    next actual computed => simp [tagged,computed]
    next refused => simp [refused]
    next _ refused => simp [refused]
  next untagged => simp [untagged]

section Bytes

/-- What `_assert_serializable` lets pass. -/
def leafSerializable : Value → Bool
  | .float x => match x.number with | .finite _ _ => true | _ => false
  | .other _ _ _ => false
  | _ => true

def serializable (v : Value) : Bool := v.every leafSerializable (fun _ => true)

/-- No integer is too long to write. -/
def writable (v : Value) : Bool := v.every (fun | .int n => Decimal.printable n | _ => true) (fun _ => true)

theorem assertItems_eq_ok {items : List Value} {path : Str} {index : Nat}
    (each : ∀ v ∈ items, ∀ path, assertSerializable v path = .ok () ↔ serializable v = true) :
    assertItems items path index = .ok () ↔ ∀ v ∈ items, serializable v = true := by
  induction items generalizing index with
  | nil => simp [assertItems]
  | cons v rest ih =>
    rw [List.forall_mem_cons] at each
    rw [assertItems,List.forall_mem_cons,← each.1 (path ++ CodePoint.ofChar '/' :: Decimal.natural index),
      ← @ih (index + 1) each.2]
    cases assertSerializable v (path ++ CodePoint.ofChar '/' :: Decimal.natural index) <;> simp

theorem assertMembers_eq_ok {members : Dict} {path : Str}
    (each : ∀ m ∈ members, ∀ path, assertSerializable m.2 path = .ok () ↔ serializable m.2 = true) :
    assertMembers members path = .ok () ↔ ∀ m ∈ members, serializable m.2 = true := by
  induction members with
  | nil => simp [assertMembers]
  | cons m rest ih =>
    rw [List.forall_mem_cons] at each
    rw [assertMembers,List.forall_mem_cons,← each.1 (path ++ CodePoint.ofChar '/' :: m.1),← ih each.2]
    cases assertSerializable m.2 (path ++ CodePoint.ofChar '/' :: m.1) <;> simp

theorem assertSerializable_eq_ok {v : Value} {path : Str} :
    assertSerializable v path = .ok () ↔ serializable v = true := by
  induction v using Value.induct generalizing path with
  | list items ih =>
    rw [assertSerializable,assertItems_eq_ok (fun v member path => ih v member),serializable,Value.every_list]
    rfl
  | dict members ih =>
    rw [assertSerializable,assertMembers_eq_ok (fun m member path => ih m member),serializable,Value.every_dict]
    simp [serializable]
  | float x =>
    rw [assertSerializable,serializable,Value.every,leafSerializable]
    cases x.number <;> simp
  | other kind repr json ih => simp [assertSerializable,serializable,Value.every,leafSerializable]
  | _ => simp [assertSerializable,serializable,Value.every,leafSerializable]

theorem compact_canonicalOptions : canonicalOptions.Compact := ⟨rfl,rfl,rfl⟩

theorem writable_canonicalOptions {v : Value} :
    Json.Writable Failure canonicalOptions v ↔ serializable v = true ∧ writable v = true := by
  rw [Json.writable_iff]
  induction v using Value.induct with
  | list items ih =>
    rw [serializable,writable,Value.every_list,Value.every_list,Value.every_list,← forall₂_and]
    exact forall₂_congr ih
  | dict members ih =>
    rw [serializable,writable,Value.every_dict,Value.every_dict,Value.every_dict,← forall₂_and]
    refine forall₂_congr (fun m member => ?_)
    simpa [serializable,writable] using ih m member
  | float x =>
    simp only [Value.every,Json.leafWritable,leafSerializable,serializable,writable,canonicalOptions]
    cases x.number <;> simp
  | int n => simp [Value.every,Json.leafWritable,leafSerializable,serializable,writable]
  | other kind repr json ih => simp [Value.every,Json.leafWritable,leafSerializable,serializable,writable]
  | _ => simp [Value.every,Json.leafWritable,leafSerializable,serializable,writable]

theorem dumps_eq_ok {v : Value} {text : Str} :
    (Json.dumps canonicalOptions v : Except PyExc Str) = .ok text ↔
      Json.Writable Failure canonicalOptions v ∧ Json.render canonicalOptions v = text := by
  unfold Json.dumps Json.Writable
  split
  next e refused => simp [refused]
  next written => simp [written]

theorem canonicalBytes_eq_ok {v : Value} {data : Bytes} : canonicalBytes v = .ok data ↔
    serializable v = true ∧ writable v = true ∧ v.scalar = true ∧
      Utf8.bytes (Json.render canonicalOptions v.sorted) = data := by
  have plain (good : Json.Writable Failure canonicalOptions v) :
      Str.scalar (Json.render canonicalOptions v.sorted) = true ↔ v.scalar = true := by
    rw [Json.scalar_render compact_canonicalOptions (Json.writable_sorted.mpr good),Value.scalar,
      Value.every_sorted (fun _ _ _ => rfl),Value.scalar]
  constructor
  · intro done
    obtain ⟨text,done,encoded⟩ := bind_eq_ok.mp done
    obtain ⟨_,checked,dumped⟩ := bind_eq_ok.mp done
    obtain ⟨good,rfl⟩ := dumps_eq_ok.mp dumped
    obtain ⟨readable,bytes⟩ := Utf8.encode_eq_ok.mp encoded
    rw [Json.writable_sorted] at good
    obtain ⟨checked,written⟩ := writable_canonicalOptions.mp good
    exact ⟨checked,written,(plain good).mp readable,bytes⟩
  · rintro ⟨checked,written,readable,rfl⟩
    have good : Json.Writable Failure canonicalOptions v := writable_canonicalOptions.mpr ⟨checked,written⟩
    rw [canonicalBytes,canonicalJson,assertSerializable_eq_ok.mpr checked,ok_bind,
      dumps_eq_ok.mpr ⟨Json.writable_sorted.mpr good,rfl⟩,ok_bind]
    exact Utf8.encode_eq_ok.mpr ⟨(plain good).mpr readable,rfl⟩

/-- The canonical bytes determine the value, the order of keys aside. -/
theorem canonicalBytes_inj {v w : Value} {data : Bytes} (first : canonicalBytes v = .ok data)
    (second : canonicalBytes w = .ok data) : Value.Same v w := by
  obtain ⟨checked,written,_,bytes⟩ := canonicalBytes_eq_ok.mp first
  obtain ⟨otherChecked,otherWritten,_,same⟩ := canonicalBytes_eq_ok.mp second
  exact Json.render_injective compact_canonicalOptions
    (Json.writable_sorted.mpr (writable_canonicalOptions.mpr ⟨checked,written⟩))
    (Json.writable_sorted.mpr (writable_canonicalOptions.mpr ⟨otherChecked,otherWritten⟩))
    (Utf8.bytes_injective (bytes.trans same.symm))

/-- What has canonical bytes. -/
def Canonical (v : Value) : Prop := serializable v = true ∧ writable v = true ∧ v.scalar = true

theorem exists_canonicalBytes {v : Value} : (∃ data, canonicalBytes v = .ok data) ↔ Canonical v := by
  constructor
  · rintro ⟨data,done⟩
    obtain ⟨checked,written,plain,_⟩ := canonicalBytes_eq_ok.mp done
    exact ⟨checked,written,plain⟩
  · rintro ⟨checked,written,plain⟩
    exact ⟨_,canonicalBytes_eq_ok.mpr ⟨checked,written,plain,rfl⟩⟩

theorem exists_contentDigest {document : Dict} {exclude : List Str} :
    (∃ digest, contentDigest document exclude = .ok digest) ↔ Canonical (.dict (Dict.without document exclude)) := by
  rw [← exists_canonicalBytes]
  constructor
  · rintro ⟨digest,done⟩
    obtain ⟨data,taken,_⟩ := bind_eq_ok.mp done
    exact ⟨data,taken⟩
  · rintro ⟨data,taken⟩
    exact ⟨digestOf data,by rw [contentDigest,taken]; rfl⟩

@[simp] theorem canonical_null : Canonical .null := ⟨rfl,rfl,rfl⟩

@[simp] theorem canonical_str {s : Str} : Canonical (.str s) ↔ s.scalar = true :=
  ⟨fun canonical => canonical.2.2,fun plain => ⟨rfl,rfl,plain⟩⟩

@[simp] theorem canonical_bool {b : Bool} : Canonical (.bool b) := ⟨rfl,rfl,rfl⟩

@[simp] theorem canonical_int {n : Int} : Canonical (.int n) ↔ Decimal.printable n = true := by
  simp [Canonical,serializable,writable,Value.scalar,Value.every,leafSerializable]

@[simp] theorem canonical_list {items : List Value} : Canonical (.list items) ↔ ∀ v ∈ items, Canonical v := by
  simp only [Canonical,serializable,writable,Value.scalar,Value.every_list,← forall₂_and]

@[simp] theorem canonical_dict {members : Dict} :
    Canonical (.dict members) ↔ ∀ m ∈ members, m.1.scalar = true ∧ Canonical m.2 := by
  simp only [Canonical,serializable,writable,Value.scalar,Value.every_dict,← forall₂_and]
  refine forall₂_congr (fun m _ => ?_)
  tauto

theorem Canonical.set {d : Dict} {key : Str} {value : Value} (before : Canonical (.dict d)) (plain : key.scalar = true)
    (new : Canonical value) : Canonical (.dict (Dict.set d key value)) := by
  rw [canonical_dict] at before ⊢
  intro m member
  rcases Assoc.mem_set member with rfl | old
  · exact ⟨plain,new⟩
  · exact before m old

theorem Canonical.without {d : Dict} (names : List Str) (before : Canonical (.dict d)) :
    Canonical (.dict (Dict.without d names)) := by
  rw [canonical_dict] at before ⊢
  exact fun m member => before m (List.mem_of_mem_filter member)

end Bytes

end ToolLayer
