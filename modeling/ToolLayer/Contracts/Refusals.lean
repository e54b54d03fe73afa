import Mathlib.Tactic.Ring
import ToolLayer.Contracts.CanonicalJson
import ToolLayer.Contracts.Validation

/-! Which exceptions the validation of contract documents can raise, and on what. -/
namespace ToolLayer
open Python Kit Kit.Result

/-- `except ToolLayerError` catches it. -/
def IsToolLayer (e : PyExc) : Prop := ∃ t, e = .own (.toolLayer t)

theorem isToolLayer_iff {e : PyExc} : IsToolLayer e ↔ e.toolLayer?.isSome = true := by
  constructor
  · rintro ⟨t,rfl⟩
    rfl
  · intro found
    unfold PyExc.toolLayer? at found
    split at found
    next t => exact ⟨t,rfl⟩
    next => cases found

theorem isToolLayer_error (code : ErrorCode) (message : Str) (pointer : Option Str) (details : List ErrorDetail) :
    IsToolLayer (toolLayerError code message pointer details) := ⟨_,rfl⟩

section Versions

/-- A version with a number `int()` refuses to read. -/
def overlong (v : Value) : Bool :=
  match v with
  | .str s =>
    match semverMatch s with
    | some (major,minor,patch,_) =>
      !(decide (major.length ≤ Decimal.maxDigits) && decide (minor.length ≤ Decimal.maxDigits) &&
        decide (patch.length ≤ Decimal.maxDigits))
    | none => false
  | _ => false

theorem digitsValue_lt {s : Str} (digits : s.all CodePoint.isDigit = true) : Str.digitsValue s < 10 ^ s.length := by
  have step : ∀ (t : Str) (n : Nat), t.all CodePoint.isDigit = true →
      t.foldl (fun n c => 10 * n + (c.val - 0x30)) n < (n + 1) * 10 ^ t.length := by
    intro t
    induction t with
    | nil => simp
    | cons c rest ih =>
      intro n all
      rw [List.all_cons,Bool.and_eq_true,CodePoint.isDigit,CodePoint.between,Bool.and_eq_true,decide_eq_true_eq,
        decide_eq_true_eq] at all
      have next := ih (10 * n + (c.val - 0x30)) all.2
      rw [List.foldl_cons,List.length_cons,Nat.pow_succ]
      calc _ < (10 * n + (c.val - 0x30) + 1) * 10 ^ rest.length := next
        _ ≤ (10 * (n + 1)) * 10 ^ rest.length := Nat.mul_le_mul_right _ (by omega)
        _ = (n + 1) * (10 ^ rest.length * 10) := by ring
  have whole := step s 0 digits
  rw [Nat.zero_add,Nat.one_mul] at whole
  exact whole

theorem decimalInt_cases (s : Str) : (s.length ≤ Decimal.maxDigits ∧ decimalInt s = .ok (Str.digitsValue s)) ∨
    (¬ s.length ≤ Decimal.maxDigits ∧ decimalInt s = .error .valueError) := by
  unfold decimalInt
  split
  next short => exact Or.inl ⟨short,rfl⟩
  next long => exact Or.inr ⟨long,rfl⟩

theorem digits_of_numericIdentifier {s : Str} (numeric : Patterns.numericIdentifier s = true) :
    s.all CodePoint.isDigit = true := by
  unfold Patterns.numericIdentifier at numeric
  split at numeric
  next => cases numeric
  next =>
    rw [Bool.and_eq_true] at numeric
    exact numeric.1

/-- The numbers of a version are digits. -/
theorem semverMatch_digits {s major minor patch : Str} {prerelease : Option Str}
    (matched : semverMatch s = some (major,minor,patch,prerelease)) :
    major.all CodePoint.isDigit = true ∧ minor.all CodePoint.isDigit = true := by
  have parts : ∀ t, Patterns.semverParts t = some (major,minor,patch,prerelease) →
      major.all CodePoint.isDigit = true ∧ minor.all CodePoint.isDigit = true := by
    intro t found
    unfold Patterns.semverParts at found
    dsimp only at found
    split at found
    next a b c _ =>
      split at found
      next numeric =>
        cases found
        simp only [Bool.and_eq_true] at numeric
        exact ⟨digits_of_numericIdentifier numeric.1.1.1,digits_of_numericIdentifier numeric.1.1.2⟩
      next => cases found
    next => cases found
  unfold semverMatch at matched
  split at matched
  next found exact_ => exact parts s (exact_.trans matched)
  next =>
    split at matched
    next => exact parts _ matched
    next => cases matched

theorem semverMatch_length {s major minor patch : Str} {prerelease : Option Str}
    (matched : semverMatch s = some (major,minor,patch,prerelease)) :
    major.length ≤ s.length ∧ minor.length ≤ s.length ∧ patch.length ≤ s.length := by
  have parts : ∀ t : Str, Patterns.semverParts t = some (major,minor,patch,prerelease) →
      major.length ≤ t.length ∧ minor.length ≤ t.length ∧ patch.length ≤ t.length := by
    intro t found
    unfold Patterns.semverParts at found
    dsimp only at found
    split at found
    next a b c cut =>
      split at found
      next =>
        cases found
        have pieces : ∀ piece ∈ [major,minor,patch], piece.length ≤ t.length := by
          intro piece member
          have inside := Split.length_le_of_mem_cut _ _ piece (cut ▸ member)
          have front : (Str.partition (CodePoint.ofChar '-') t).1.length ≤ t.length := by
            have whole := Str.partition_eq (CodePoint.ofChar '-') t rfl
            have lengths := congrArg List.length whole
            rw [List.length_append] at lengths
            omega
          exact inside.trans front
        exact ⟨pieces _ (by simp),pieces _ (by simp),pieces _ (by simp)⟩
      next => cases found
    next => cases found
  unfold semverMatch at matched
  split at matched
  next found exact_ => exact parts s (exact_.trans matched)
  next =>
    split at matched
    next =>
      have shorter : s.dropLast.length ≤ s.length := by simp
      obtain ⟨first,second,third⟩ := parts _ matched
      exact ⟨first.trans shorter,second.trans shorter,third.trans shorter⟩
    next => cases matched

theorem overlong_of_length {s : Str} (short : s.length ≤ Decimal.maxDigits) : overlong (.str s) = false := by
  unfold overlong
  dsimp only
  split
  next major minor patch prerelease matched =>
    obtain ⟨first,second,third⟩ := semverMatch_length matched
    simp [first.trans short,second.trans short,third.trans short]
  next => rfl

theorem parseVersion_cases (v : Value) : (∃ version, parseVersion v = .ok version ∧ overlong v = false ∧
      Decimal.printable version.major = true) ∨
    (∃ message, parseVersion v = .error (incompatible message) ∧ overlong v = false) ∨
    (parseVersion v = .error .valueError ∧ overlong v = true) := by
  cases v with
  | str s =>
    cases matched : semverMatch s with
    | none => exact Or.inr (Or.inl ⟨_,by simp only [parseVersion,matched]; exact ⟨rfl,by simp only [overlong,matched]⟩⟩)
    | some parts =>
      obtain ⟨major,minor,patch,prerelease⟩ := parts
      have digits := (semverMatch_digits matched).1
      simp only [parseVersion,overlong,matched]
      rcases decimalInt_cases major with ⟨short,first⟩ | ⟨long,first⟩
      · rcases decimalInt_cases minor with ⟨few,second⟩ | ⟨many,second⟩
        · rcases decimalInt_cases patch with ⟨small,third⟩ | ⟨large,third⟩
          · refine Or.inl ⟨⟨_,_,_,_⟩,by rw [first,second,third]; rfl,by simp [short,few,small],?_⟩
            have bound := digitsValue_lt digits
            have power := Nat.pow_le_pow_right (show 0 < 10 by omega) short
            simp only [Decimal.printable,Int.natAbs_natCast,decide_eq_true_eq]
            omega
          · exact Or.inr (Or.inr ⟨by rw [first,second,third]; rfl,by simp [large]⟩)
        · exact Or.inr (Or.inr ⟨by rw [first,second]; rfl,by simp [many]⟩)
      · exact Or.inr (Or.inr ⟨by rw [first]; rfl,by simp [long]⟩)
  | _ => exact Or.inr (Or.inl ⟨_,rfl,rfl⟩)

/-- `require_supported` raises its own error, or the `ValueError` of an overlong number. -/
theorem requireSupported_cases (v : Value) : (∃ version, requireSupported v = .ok version ∧ overlong v = false) ∨
    (∃ message, requireSupported v = .error (incompatible message) ∧ overlong v = false) ∨
    (requireSupported v = .error .valueError ∧ overlong v = true) := by
  rcases parseVersion_cases v with ⟨version,parsed,short,printable⟩ | ⟨message,failed,short⟩ | ⟨failed,long⟩
  · unfold requireSupported
    rw [parsed,ok_bind]
    split
    next =>
      have written : (Decimal.str version.major : Except PyExc Str) = .ok (Decimal.text version.major) := by
        rw [Decimal.str,if_pos printable]
      rw [written]
      exact Or.inr (Or.inl ⟨_,rfl,short⟩)
    next =>
      cases newer : decide (supportedVersion.minor < version.minor) with
      | false => exact Or.inl ⟨version,rfl,short⟩
      | true => exact Or.inr (Or.inl ⟨_,rfl,short⟩)
  · exact Or.inr (Or.inl ⟨message,by rw [requireSupported,failed]; rfl,short⟩)
  · exact Or.inr (Or.inr ⟨by rw [requireSupported,failed]; rfl,long⟩)

end Versions

section Schemas

variable {v : Value} {members : Dict}

theorem only_requireContractVersion (short : overlong (Dict.get members "contract_version") = false) (label : Str) :
    Only IsToolLayer (requireContractVersion (.dict members) label) := by
  unfold requireContractVersion
  dsimp only
  rcases requireSupported_cases (Dict.get members "contract_version") with ⟨version,done,_⟩ | ⟨message,failed,_⟩ |
    ⟨_,long⟩
  · rw [done]
    exact only_ok _
  · rw [failed]
    exact only_error ⟨_,rfl⟩
  · rw [short] at long
    cases long

theorem requireContractVersion_eq_ok {label : Str} {read : Dict}
    (done : requireContractVersion (.dict members) label = .ok read) : read = members := by
  unfold requireContractVersion at done
  dsimp only at done
  split at done
  · exact (Except.ok.inj done).symm
  · cases done
  · cases done

theorem only_validateAgainst [Unicode] (rule : Rule) (document : Value) (label : Str) :
    Only IsToolLayer (validateAgainst rule document label) := by
  unfold validateAgainst
  split
  next => exact only_ok _
  next => exact only_error ⟨_,rfl⟩

theorem only_item {key : Str} {value : Value} (present : Assoc.get key members = some value) :
    Only IsToolLayer (item members key) := only_of_eq_ok (item_eq_ok.mpr present)

theorem only_validateTool (engine : SchemaEngine) {seen : List Value} {entry : Value × Nat}
    (valid : Schemas.toolDefinition entry.1 = []) : Only IsToolLayer (validateTool engine seen entry) := by
  obtain ⟨tool,shape,_,each⟩ := Rule.object_eq_nil.mp valid
  obtain ⟨name,named,_⟩ := each (Str.lit "tool_name",_) List.mem_cons_self
  obtain ⟨schema,present,_⟩ := each (Str.lit "input_schema",Schemas.toolInputSchema) (by simp)
  unfold validateTool
  rw [shape,asDict,ok_bind]
  refine only_bind (only_item named) (fun name _ => ?_)
  refine only_bind (only_refuse (fun _ => ⟨_,rfl⟩)) (fun _ _ => ?_)
  refine only_bind (only_item present) (fun schema _ => ?_)
  refine only_bind ?_ (fun _ _ => only_ok _)
  unfold validateToolInputSchema
  split
  next => exact only_refuse (fun _ => ⟨_,rfl⟩)
  next => exact only_error ⟨_,rfl⟩

/-- What the rest of the validation reads of a connector that satisfies its schema. -/
theorem connectorDefinition_members {engine : SchemaEngine} (valid : Schemas.connectorDefinition engine v = []) :
    ∃ members version tools, v = .dict members ∧
      Assoc.get (Str.lit "contract_version") members = some (.str version) ∧ version.length ≤ 64 ∧
      Assoc.get (Str.lit "tools") members = some (.list tools) ∧ ∀ tool ∈ tools, Schemas.toolDefinition tool = [] := by
  obtain ⟨members,rfl,_,each⟩ := Rule.object_eq_nil.mp valid
  obtain ⟨value,versioned,accepted⟩ := each (Str.lit "contract_version",Schemas.semanticVersion) List.mem_cons_self
  rw [Schemas.semanticVersion,Rule.all_cons_eq_nil,Rule.all_cons_eq_nil] at accepted
  obtain ⟨version,rfl⟩ := Rule.type_string_eq_nil.mp accepted.1
  obtain ⟨list,present,listed⟩ := each (Str.lit "tools",_) (by simp; rfl)
  rw [Rule.all_eq_nil] at listed
  obtain ⟨tools,rfl⟩ := Rule.type_array_eq_nil.mp (listed _ (by simp))
  have rules : Rule.items Schemas.toolDefinition (.list tools) = [] := listed _ (by simp)
  have short : decide (version.length ≤ 64) = true := by
    simpa [Rule.maxLength] using accepted.2.1
  exact ⟨members,version,tools,rfl,versioned,by simpa using short,present,Rule.items_eq_nil.mp rules⟩

theorem only_validateConnectorDefinition [Unicode] {engine : SchemaEngine}
    (valid : Schemas.connectorDefinition engine v = []) : Only IsToolLayer (validateConnectorDefinition engine v) := by
  obtain ⟨members,version,tools,rfl,versioned,short,listed,each⟩ := connectorDefinition_members valid
  have brief : overlong (Dict.get members "contract_version") = false := by
    rw [Dict.get,versioned]
    exact overlong_of_length (short.trans (by decide))
  unfold validateConnectorDefinition
  refine only_bind (only_requireContractVersion brief _) (fun read done => ?_)
  cases requireContractVersion_eq_ok done
  refine only_bind (only_validateAgainst _ _ _) (fun _ _ => ?_)
  rw [item_eq_ok.mpr listed,ok_bind,elements,ok_bind]
  refine only_bind (only_loop (fun seen entry member => ?_)) (fun _ _ => only_ok _)
  exact only_validateTool engine (each _ (List.fst_mem_of_mem_zipIdx member))

/-- With a contract version `int()` can read, validation raises nothing but its own errors. -/
theorem only_validateDeploymentSnapshot [Unicode] (engine : SchemaEngine)
    (short : overlong (Dict.get members "contract_version") = false) :
    Only IsToolLayer (validateDeploymentSnapshot engine (.dict members)) := by
  unfold validateDeploymentSnapshot
  refine only_bind (only_requireContractVersion short _) (fun read done => ?_)
  cases requireContractVersion_eq_ok done
  refine only_bind (only_validateAgainst _ _ _) (fun _ accepted => ?_)
  obtain ⟨_,each,_⟩ := (deploymentSnapshot_eq_nil engine).mp (validateAgainst_eq_ok.mp accepted)
  obtain ⟨list,present,listed⟩ := each (Str.lit "connectors",_) (by simp [Schemas.snapshotMembers]; rfl) (by simp)
  rw [Rule.all_eq_nil] at listed
  obtain ⟨connectors,rfl⟩ := Rule.type_array_eq_nil.mp (listed _ (by simp))
  have rules : Rule.items (Schemas.connectorDefinition engine) (.list connectors) = [] := listed _ (by simp)
  rw [item_eq_ok.mpr present,ok_bind,elements,ok_bind]
  refine only_bind (only_loop (fun seen entry member => ?_)) (fun _ _ => only_ok _)
  have valid := Rule.items_eq_nil.mp rules _ (List.fst_mem_of_mem_zipIdx member)
  obtain ⟨connector,shape,_,fields⟩ := Rule.object_eq_nil.mp valid
  obtain ⟨key,keyed,_⟩ := fields (Str.lit "connector_key",Schemas.key) (by simp)
  obtain ⟨state,staged,_⟩ := fields (Str.lit "lifecycle_state",_) (by simp; rfl)
  unfold validateConnector
  rw [shape,asDict,ok_bind,← shape]
  refine only_bind (only_item keyed) (fun key _ => ?_)
  refine only_bind (only_refuse (fun _ => ⟨_,rfl⟩)) (fun _ _ => ?_)
  refine only_bind (only_item staged) (fun state _ => ?_)
  refine only_bind (only_refuse (fun _ => ⟨_,rfl⟩)) (fun _ _ => ?_)
  exact only_bind (only_validateConnectorDefinition valid) (fun _ _ => only_ok _)

end Schemas

section Canonical

def IsCanonicalJson (e : PyExc) : Prop := ∃ message, e = canonicalJsonError message

theorem only_assertSerializable (v : Value) (path : Str) : Only IsCanonicalJson (assertSerializable v path) := by
  induction v using Value.induct generalizing path with
  | list items ih =>
    rw [assertSerializable]
    have loop : ∀ index, Only IsCanonicalJson (assertItems items path index) := by
      induction items with
      | nil => exact fun _ => only_ok _
      | cons item rest tail =>
        intro index e raised
        rw [assertItems] at raised
        split at raised
        next => exact tail (fun v member => ih v (List.mem_cons_of_mem _ member)) (index + 1) e raised
        next failed =>
          cases raised
          exact ih item List.mem_cons_self _ _ failed
    exact loop 0
  | dict members ih =>
    rw [assertSerializable]
    induction members with
    | nil => exact only_ok _
    | cons m rest tail =>
      intro e raised
      rw [assertMembers] at raised
      split at raised
      next => exact tail (fun v member => ih v (List.mem_cons_of_mem _ member)) e raised
      next failed =>
        cases raised
        exact ih m List.mem_cons_self _ _ failed
  | float x =>
    rw [assertSerializable]
    split
    next => exact only_ok _
    next => exact only_error ⟨_,rfl⟩
  | other kind repr json ih => exact only_error ⟨_,rfl⟩
  | _ => exact only_ok _

/-- Among serializable values only an integer too long to write stops `json.dumps`. -/
theorem unwritable_eq_some {v : Value} {e : PyExc} (plain : serializable v = true)
    (refused : Json.unwritable canonicalOptions v = some e) : e = .valueError := by
  induction v using Value.induct with
  | list items ih =>
    rw [serializable,Value.every_list] at plain
    rw [Json.unwritable] at refused
    induction items with
    | nil => cases refused
    | cons item rest tail =>
      rw [List.forall_mem_cons] at plain ih
      rw [Json.unwritableList,Option.or_eq_some_iff] at refused
      rcases refused with first | ⟨_,later⟩
      · exact ih.1 plain.1 first
      · exact tail ih.2 plain.2 later
  | dict members ih =>
    rw [serializable,Value.every_dict] at plain
    rw [Json.unwritable] at refused
    induction members with
    | nil => cases refused
    | cons m rest tail =>
      rw [List.forall_mem_cons] at plain ih
      rw [Json.unwritableMembers,Option.or_eq_some_iff] at refused
      rcases refused with first | ⟨_,later⟩
      · exact ih.1 plain.1.2 first
      · exact tail ih.2 plain.2 later
  | int n =>
    rw [Json.unwritable] at refused
    split at refused
    next => cases refused
    next => exact (Option.some.inj refused).symm
  | float x =>
    rw [serializable,Value.every,leafSerializable] at plain
    rw [Json.unwritable] at refused
    split at refused
    next => cases refused
    next => exact (Option.some.inj refused).symm
  | other kind repr json ih => simp [serializable,Value.every,leafSerializable] at plain
  | _ => cases refused

/-- What `canonical_bytes` raises: its own error, or that of a text UTF-8 cannot encode, or
of an integer too long to write. -/
theorem canonicalBytes_cases (v : Value) : (∃ data, canonicalBytes v = .ok data) ∨
    (serializable v = false ∧ ∃ message, canonicalBytes v = .error (canonicalJsonError message)) ∨
    (serializable v = true ∧ (writable v && v.scalar) = false ∧ ∃ e, canonicalBytes v = .error e ∧
      (e = .valueError ∨ e = .unicodeEncodeError)) := by
  cases outcome : canonicalBytes v with
  | ok data => exact Or.inl ⟨data,rfl⟩
  | error e =>
    refine Or.inr ?_
    cases plain : serializable v with
    | false =>
      refine Or.inl ⟨rfl,?_⟩
      rcases bind_eq_error.mp outcome with early | ⟨text,done,_⟩
      · rcases bind_eq_error.mp early with refused | ⟨_,checked,_⟩
        · obtain ⟨message,rfl⟩ := only_assertSerializable v [] e refused
          exact ⟨message,rfl⟩
        · rw [assertSerializable_eq_ok.mp checked] at plain
          cases plain
      · obtain ⟨_,checked,_⟩ := bind_eq_ok.mp done
        rw [assertSerializable_eq_ok.mp checked] at plain
        cases plain
    | true =>
      refine Or.inr ⟨rfl,?_,e,rfl,?_⟩
      · cases fits : writable v && v.scalar with
        | false => rfl
        | true =>
          rw [Bool.and_eq_true] at fits
          have done := canonicalBytes_eq_ok.mpr ⟨plain,fits.1,fits.2,rfl⟩
          rw [outcome] at done
          cases done
      · rcases bind_eq_error.mp outcome with early | ⟨text,_,encoded⟩
        · rcases bind_eq_error.mp early with refused | ⟨_,_,dumped⟩
          · obtain ⟨_,checked⟩ : ∃ u, assertSerializable v [] = .ok u := ⟨(),assertSerializable_eq_ok.mpr plain⟩
            rw [checked] at refused
            cases refused
          · unfold Json.dumps at dumped
            split at dumped
            next found refused =>
              cases dumped
              have sorted : serializable v.sorted = true := by
                rw [serializable,Value.every_sorted (fun _ _ _ => rfl)]
                exact plain
              exact Or.inl (unwritable_eq_some sorted refused)
            next => cases dumped
        · unfold Utf8.encode at encoded
          split at encoded
          next => cases encoded
          next => exact Or.inr (Except.error.inj encoded).symm

theorem contentDigest_cases (document : Dict) (exclude : List Str) :
    (∃ digest, contentDigest document exclude = .ok digest) ∨
    (∃ message, contentDigest document exclude = .error (canonicalJsonError message)) ∨
    (serializable (.dict (Dict.without document exclude)) = true ∧
      (writable (.dict (Dict.without document exclude)) && Value.scalar (.dict (Dict.without document exclude))) = false ∧
      ∃ e, contentDigest document exclude = .error e ∧ (e = .valueError ∨ e = .unicodeEncodeError)) := by
  unfold contentDigest
  rcases canonicalBytes_cases (.dict (Dict.without document exclude)) with ⟨data,done⟩ | ⟨_,message,failed⟩ |
    ⟨plain,unfit,e,failed,kind⟩
  · rw [done]
    exact Or.inl ⟨_,rfl⟩
  · rw [failed]
    exact Or.inr (Or.inl ⟨message,rfl⟩)
  · rw [failed]
    exact Or.inr (Or.inr ⟨plain,unfit,e,rfl,kind⟩)

end Canonical

end ToolLayer
