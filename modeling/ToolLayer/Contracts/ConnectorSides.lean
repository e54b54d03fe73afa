import ToolLayer.Contracts.ToolSides

/-! The two rules of connector and snapshot documents, part by part. -/
namespace ToolLayer
open Python Kit Kit.Result

theorem ConnectorDefinition.modelValidate_eq_ok [Pydantic] [Unicode] {v : Value} {c : ConnectorDefinition} :
    ConnectorDefinition.modelValidate v = .ok c ↔ ConnectorDefinition.read v = some c := by
  unfold ConnectorDefinition.modelValidate
  cases ConnectorDefinition.read v <;> simp

theorem DeploymentSnapshot.modelValidate_eq_ok [Pydantic] [Unicode] {v : Value} {s : DeploymentSnapshot} :
    DeploymentSnapshot.modelValidate v = .ok s ↔ DeploymentSnapshot.read v = some s := by
  unfold DeploymentSnapshot.modelValidate
  cases DeploymentSnapshot.read v <;> simp

/-- A version this build reads: major one, minor at most one, no number too long for `int`. -/
def Supported (s : Str) : Prop :=
  ∃ major minor patch prerelease, semverMatch s = some (major,minor,patch,prerelease) ∧
    major.length ≤ Decimal.maxDigits ∧ minor.length ≤ Decimal.maxDigits ∧ patch.length ≤ Decimal.maxDigits ∧
    Str.digitsValue major = 1 ∧ Str.digitsValue minor ≤ 1

theorem decimalInt_eq_ok {s : Str} {n : Nat} :
    decimalInt s = .ok n ↔ s.length ≤ Decimal.maxDigits ∧ Str.digitsValue s = n := by
  unfold decimalInt
  split <;> simp_all

theorem requireSupported_iff {v : Value} : (∃ declared, requireSupported v = .ok declared) ↔
    ∃ s, v = .str s ∧ Supported s := by
  constructor
  · rintro ⟨declared,done⟩
    obtain ⟨parsed,parse,done⟩ := bind_eq_ok.mp done
    cases v with
    | str s =>
      refine ⟨s,rfl,?_⟩
      cases found : semverMatch s with
      | none => simp [parseVersion,found] at parse
      | some parts =>
        obtain ⟨major,minor,patch,prerelease⟩ := parts
        simp only [parseVersion,found] at parse
        obtain ⟨m,majorRead,parse⟩ := bind_eq_ok.mp parse
        obtain ⟨n,minorRead,parse⟩ := bind_eq_ok.mp parse
        obtain ⟨p,patchRead,parse⟩ := bind_eq_ok.mp parse
        cases parse
        obtain ⟨majorShort,rfl⟩ := decimalInt_eq_ok.mp majorRead
        obtain ⟨minorShort,rfl⟩ := decimalInt_eq_ok.mp minorRead
        obtain ⟨patchShort,_⟩ := decimalInt_eq_ok.mp patchRead
        by_cases same : Str.digitsValue major = 1
        · rw [if_neg (by simp [supportedVersion,same])] at done
          obtain ⟨_,newer,_⟩ := bind_eq_ok.mp done
          rw [refuse_eq_ok,decide_eq_false_iff_not] at newer
          exact ⟨major,minor,patch,prerelease,found,majorShort,minorShort,patchShort,same,
            Nat.le_of_not_lt newer⟩
        · rw [if_pos (by simp [supportedVersion,same])] at done
          obtain ⟨_,_,done⟩ := bind_eq_ok.mp done
          cases done
    | _ => cases parse
  · rintro ⟨s,rfl,major,minor,patch,prerelease,found,majorShort,minorShort,patchShort,same,newer⟩
    have parse : parseVersion (.str s) = .ok ⟨Str.digitsValue major,Str.digitsValue minor,Str.digitsValue patch,prerelease⟩ := by
      simp only [parseVersion,found,decimalInt_eq_ok.mpr ⟨majorShort,rfl⟩,decimalInt_eq_ok.mpr ⟨minorShort,rfl⟩,
        decimalInt_eq_ok.mpr ⟨patchShort,rfl⟩,ok_bind]
      rfl
    refine ⟨⟨Str.digitsValue major,Str.digitsValue minor,Str.digitsValue patch,prerelease⟩,?_⟩
    have notNewer : decide (supportedVersion.minor < Str.digitsValue minor) = false :=
      decide_eq_false (Nat.not_lt.mpr newer)
    rw [requireSupported,parse,ok_bind,if_neg (by simp [supportedVersion,same])]
    simp only [notNewer,refuse_false,ok_bind]
    rfl

namespace Sides

variable {v : Value}

def ContractSupported (v : Value) : Prop := ∃ s, v.entry "contract_version" = .str s ∧ Supported s

theorem requireContractVersion_iff {label : Str} {d : Dict} :
    requireContractVersion v label = .ok d ↔ v = .dict d ∧ ContractSupported v := by
  cases v with
  | dict members =>
    rw [ContractSupported,Value.entry_dict,← requireSupported_iff,requireContractVersion]
    constructor
    · intro done
      split at done
      next declared supported =>
        cases done
        exact ⟨rfl,declared,supported⟩
      next => cases done
      next => cases done
    · rintro ⟨same,declared,supported⟩
      cases same
      rw [supported]
  | _ => simp [requireContractVersion]

variable [Unicode]

/-- The schema's pattern lets through addresses that the model's `urlsplit` refuses. -/
def baseUrl : Sides :=
  ((text 0 2048).and (schemaOnly (fun v => ∀ s, v = .str s → Patterns.beforeFinalNewline Patterns.baseUrl s = true))).and
    (modelOnly (fun v => ∀ s, v = .str s → reviewedOrigin s = true))

def runtimeBinding : Sides :=
  object [("protocol",exactly "http"),("base_url",baseUrl),("auth_profile_ref",reference Patterns.opaqueReference)]

theorem baseUrl_first : Rule.all [Rule.type [.string],Rule.maxLength 2048,Rule.pattern Patterns.baseUrl] v = [] ↔
    baseUrl.first v := by
  simp only [baseUrl,TwoSided.and,schemaOnly_first,modelOnly_first,and_true,← text_first,Schemas.text,
    Rule.all_cons_eq_nil,Rule.type_string_eq_nil]
  constructor
  · rintro ⟨⟨s,rfl⟩,short,matched,_⟩
    exact ⟨⟨⟨s,rfl⟩,by simp [Rule.minLength],short,rfl⟩,by simpa [Rule.pattern] using matched⟩
  · rintro ⟨⟨⟨s,rfl⟩,_,short,_⟩,matched⟩
    exact ⟨⟨s,rfl⟩,short,by simpa [Rule.pattern] using matched,rfl⟩

theorem baseUrl_second : baseUrl.second v ↔
    ∃ s, v = .str s ∧ boundedText 0 2048 s = true ∧ reviewedOrigin s = true := by
  simp only [baseUrl,TwoSided.and,text_second,schemaOnly_second,modelOnly_second,and_true]
  constructor
  · rintro ⟨⟨s,rfl,bounded⟩,reviewed⟩
    exact ⟨s,rfl,bounded,reviewed s rfl⟩
  · rintro ⟨s,rfl,bounded,reviewed⟩
    exact ⟨⟨s,rfl,bounded⟩,by rintro _ ⟨⟩; exact reviewed⟩

omit [Unicode] in
theorem authProfileRef_first : Rule.oneOf [Schemas.opaqueReference,Rule.type [.null]] v = [] ↔
    (reference Patterns.opaqueReference).first v := by
  rw [Rule.oneOf,Rule.leaf_eq_nil]
  cases v with
  | null =>
    refine iff_of_true ?_ reference_first_null
    simp [Schemas.opaqueReference,Schemas.text,Rule.all,Rule.type,Rule.leaf,Value.isType]
  | str s =>
    rw [reference_first_text]
    have notNull : (Rule.type [.null] (.str s)).isEmpty = false := rfl
    have taken : (Schemas.opaqueReference (.str s)).isEmpty = true ↔
        1 ≤ s.length ∧ s.length ≤ 256 ∧ Patterns.beforeFinalNewline Patterns.opaqueReference s = true := by
      rw [List.isEmpty_iff,Schemas.opaqueReference]
      simp [Schemas.text,Rule.type,Value.isType,Rule.minLength,Rule.maxLength,Rule.pattern,and_assoc]
    rw [← taken]
    cases passed : (Schemas.opaqueReference (.str s)).isEmpty <;> simp [List.filter,notNull,passed]
  | _ =>
    refine iff_of_false ?_ (not_reference_first ?_)
    · simp [Schemas.opaqueReference,Schemas.text,Rule.all,Rule.type,Rule.leaf,Value.isType]
    · rintro (_ | _) <;> simp [textOrNull]

theorem runtimeBinding_first : Schemas.runtimeBinding v = [] ↔ runtimeBinding.first v :=
  rule_object (.cons ⟨rfl,fun _ => exactly_first⟩ (.cons ⟨rfl,fun _ => baseUrl_first⟩
    (.cons ⟨rfl,fun _ => authProfileRef_first⟩ .nil)))

theorem runtimeBinding_second : runtimeBinding.second v ↔ ∃ r, RuntimeBinding.read v = some r := by
  constructor
  · intro shape
    obtain ⟨d,rfl,known,each⟩ := object_second.mp shape
    simp only [List.forall_mem_cons] at each
    obtain ⟨⟨_,protocolFound,protocol⟩,⟨_,urlFound,url⟩,⟨_,profileFound,profile⟩,_⟩ := each
    obtain rfl := same_second.mp protocol
    obtain ⟨u,rfl,bounded,reviewed⟩ := baseUrl_second.mp url
    obtain ⟨o,rfl,profileTaken⟩ := reference_second.mp profile
    exact ⟨⟨u,o,bounded,reviewed,profileTaken⟩,RuntimeBinding.read_iff.mpr
      ⟨d,rfl,known,protocolFound,urlFound,profileFound⟩⟩
  · rintro ⟨r,read⟩
    obtain ⟨d,rfl,known,protocol,url,profile⟩ := RuntimeBinding.read_iff.mp read
    obtain ⟨bounded,reviewed,profileTaken⟩ := r.accepted
    refine object_second.mpr ⟨d,rfl,known,?_⟩
    simp only [List.forall_mem_cons]
    exact ⟨⟨_,protocol,same_second.mpr rfl⟩,⟨_,url,baseUrl_second.mpr ⟨_,rfl,bounded,reviewed⟩⟩,
      ⟨_,profile,reference_second.mpr ⟨_,rfl,profileTaken⟩⟩,by simp⟩

section Lax

variable [Pydantic]

omit [Unicode]

def sourceProvenance : Sides :=
  object [("format",oneOf ["openapi"]),("spec_version",text 1 16),("document_filename",text 1 256),
    ("document_digest",pattern Patterns.digest),("byte_length",positive)]

theorem sourceProvenance_first : Schemas.sourceProvenance v = [] ↔ sourceProvenance.first v :=
  rule_object (.cons ⟨rfl,fun _ => oneOf_first⟩ (.cons ⟨rfl,fun _ => text_first⟩ (.cons ⟨rfl,fun _ => text_first⟩
    (.cons ⟨rfl,fun _ => pattern_first⟩ (.cons ⟨rfl,fun _ => positive_first⟩ .nil)))))

theorem sourceProvenance_second : sourceProvenance.second v ↔ ∃ p, SourceProvenance.read v = some p := by
  constructor
  · intro shape
    obtain ⟨d,rfl,known,each⟩ := object_second.mp shape
    simp only [List.forall_mem_cons] at each
    obtain ⟨⟨_,formatFound,format⟩,⟨_,versionFound,version⟩,⟨_,fileFound,file⟩,⟨_,digestFound,digest⟩,
      ⟨_,lengthFound,length⟩,_⟩ := each
    obtain ⟨f,member,rfl⟩ := same_second.mp format
    rw [List.mem_singleton] at member
    obtain ⟨spec,rfl,specTaken⟩ := text_second.mp version
    obtain ⟨name,rfl,nameTaken⟩ := text_second.mp file
    obtain ⟨hash,rfl,hashTaken⟩ := pattern_second.mp digest
    obtain ⟨n,lax,bound⟩ := positive_second.mp length
    exact ⟨⟨spec,name,hash,n,specTaken,nameTaken,hashTaken,bound⟩,SourceProvenance.read_iff.mpr
      ⟨d,_,rfl,known,member ▸ formatFound,versionFound,fileFound,digestFound,lengthFound,lax⟩⟩
  · rintro ⟨p,read⟩
    obtain ⟨d,_,rfl,known,format,version,file,digest,found,lax⟩ := SourceProvenance.read_iff.mp read
    obtain ⟨specTaken,nameTaken,hashTaken,bound⟩ := p.accepted
    refine object_second.mpr ⟨d,rfl,known,?_⟩
    simp only [List.forall_mem_cons]
    exact ⟨⟨_,format,same_second.mpr ⟨_,by simp,rfl⟩⟩,⟨_,version,text_second.mpr ⟨_,rfl,specTaken⟩⟩,
      ⟨_,file,text_second.mpr ⟨_,rfl,nameTaken⟩⟩,⟨_,digest,pattern_second.mpr ⟨_,rfl,hashTaken⟩⟩,
      ⟨_,found,positive_second.mpr ⟨_,lax,bound⟩⟩,by simp⟩

def auditTimestamps : Sides :=
  object [("created_at",plain),("updated_at",plain),
    ("published_at",TwoSided.excusing (fun v => v = .null) plain)]

theorem publishedAt_first {valid : Str → Bool} (always : ∀ s, valid s = true) :
    Rule.all [Rule.type [.string,.null],Rule.format valid] v = [] ↔
      (TwoSided.excusing (fun v => v = .null) plain).first v := by
  have optional : (TwoSided.excusing (fun v => v = .null) plain).first v ↔
      v = .null ∨ Rule.all [Rule.type [.string],Rule.format valid] v = [] := or_congr_right (plain_first always).symm
  rw [optional]
  simp only [Rule.all_cons_eq_nil,Rule.type_eq_nil]
  cases v with
  | null => simp [Value.isType,Rule.format,Rule.onText_null,Rule.all]
  | _ => simp [Value.isType]

theorem publishedAt_second : (TwoSided.excusing (fun v => v = .null) plain).second v ↔
    ∃ o : Option Str, v = textOrNull o ∧ o.all Pydantic.plainText = true := by
  simp only [TwoSided.excusing,plain_second]
  constructor
  · rintro (rfl | ⟨s,rfl,taken⟩)
    · exact ⟨none,rfl,rfl⟩
    · exact ⟨some s,rfl,taken⟩
  · rintro ⟨_ | s,rfl,taken⟩
    · exact .inl rfl
    · exact .inr ⟨s,rfl,taken⟩

theorem auditTimestamps_first {engine : SchemaEngine} (formats : ∀ s, engine.dateTime s = true) :
    Schemas.auditTimestamps engine v = [] ↔ auditTimestamps.first v :=
  rule_object (.cons ⟨rfl,fun _ => plain_first formats⟩ (.cons ⟨rfl,fun _ => plain_first formats⟩
    (.cons ⟨rfl,fun _ => publishedAt_first formats⟩ .nil)))

theorem auditTimestamps_second : auditTimestamps.second v ↔ ∃ a, AuditTimestamps.read v = some a := by
  constructor
  · intro shape
    obtain ⟨d,rfl,known,each⟩ := object_second.mp shape
    simp only [List.forall_mem_cons] at each
    obtain ⟨⟨_,createdFound,created⟩,⟨_,updatedFound,updated⟩,⟨_,publishedFound,published⟩,_⟩ := each
    obtain ⟨c,rfl,createdTaken⟩ := plain_second.mp created
    obtain ⟨u,rfl,updatedTaken⟩ := plain_second.mp updated
    obtain ⟨p,rfl,publishedTaken⟩ := publishedAt_second.mp published
    exact ⟨⟨c,u,p,createdTaken,updatedTaken,publishedTaken⟩,AuditTimestamps.read_iff.mpr
      ⟨d,rfl,known,createdFound,updatedFound,publishedFound⟩⟩
  · rintro ⟨a,read⟩
    obtain ⟨d,rfl,known,created,updated,published⟩ := AuditTimestamps.read_iff.mp read
    obtain ⟨createdTaken,updatedTaken,publishedTaken⟩ := a.accepted
    refine object_second.mpr ⟨d,rfl,known,?_⟩
    simp only [List.forall_mem_cons]
    exact ⟨⟨_,created,plain_second.mpr ⟨_,rfl,createdTaken⟩⟩,⟨_,updated,plain_second.mpr ⟨_,rfl,updatedTaken⟩⟩,
      ⟨_,published,publishedAt_second.mpr ⟨_,rfl,publishedTaken⟩⟩,by simp⟩

end Lax

def version : Sides := matching 0 64 Patterns.semver

omit [Unicode] in
theorem version_first : Schemas.semanticVersion v = [] ↔ version.first v := by
  rw [version,matching_first]
  simp only [Schemas.semanticVersion,Schemas.text,Rule.all_cons_eq_nil,Rule.type_string_eq_nil]
  constructor
  · rintro ⟨⟨s,rfl⟩,short,matched,_⟩
    exact ⟨⟨⟨s,rfl⟩,by simp [Rule.minLength],short,rfl⟩,matched⟩
  · rintro ⟨⟨typed,_,short,_⟩,matched⟩
    exact ⟨typed,short,matched,rfl⟩

omit [Unicode] in
theorem version_second : version.second v ↔ ∃ s, v = .str s ∧ semanticVersion s = true := by
  rw [version,matching_second]
  simp [semanticVersion]

omit [Unicode] in
theorem isIn_text {s : Str} {seen : List Value} : (Value.str s).isIn seen = false ↔ .str s ∉ seen := by
  rw [Value.isIn,List.any_eq_false]
  constructor
  · intro apart member
    exact apart _ member (by simp [Value.pyEq])
  · intro absent w member equal
    have same : Value.str s = w := by
      cases w <;> simp_all [Value.pyEq]
    exact absent (same ▸ member)

variable (engine : SchemaEngine)

omit [Unicode] in
/-- One round of the loop over the tools, on a tool its schema accepts. -/
theorem validateTool_eq_ok {entry : Value × Nat} (valid : Schemas.toolDefinition entry.1 = []) (seen next : List Value) :
    validateTool engine seen entry = .ok next ↔ entry.1.entry "tool_name" ∉ seen ∧ SchemaChecked engine entry.1 ∧
      next = seen ++ [entry.1.entry "tool_name"] := by
  obtain ⟨d,schema,isDict,found,checked⟩ := exists_inputSchema engine valid
  obtain ⟨_,same,_,each⟩ := Rule.object_eq_nil.mp valid
  cases isDict.symm.trans same
  obtain ⟨_,nameFound,named⟩ := each (Str.lit "tool_name",Schemas.toolName) (by simp)
  obtain ⟨s,rfl⟩ : ∃ s, _ = Value.str s := Rule.type_string_eq_nil.mp (Rule.all_cons_eq_nil.mp named).1
  have name : entry.1.entry "tool_name" = .str s := by
    rw [isDict,Value.entry_dict,Dict.get_of_found nameFound]
  rw [name,← isIn_text,← checked (toolPointer entry.2 "input_schema")]
  simp only [validateTool,isDict,asDict,ok_bind,item_eq_ok.mpr nameFound,item_eq_ok.mpr found,refuse_bind_eq_ok]
  refine and_congr_right (fun _ => ?_)
  constructor
  · intro done
    obtain ⟨_,passed,done⟩ := bind_eq_ok.mp done
    cases done
    exact ⟨passed,rfl⟩
  · rintro ⟨passed,rfl⟩
    rw [passed,ok_bind]
    rfl

variable [Pydantic]

def tools : Sides :=
  ((list toolShape).and (TwoSided.same (fun v => v.items ≠ []))).and
    (schemaOnly (fun v => v.items.length ≤ 256 ∧ Rule.distinct v.items = true))

def connectorShape : Sides :=
  object [("contract_version",version),("connector_key",key),("display_name",text 1 128),("summary",text 1 1024),
    ("version",version),("lifecycle_state",oneOf ["draft","published","disabled"]),("runtime",runtimeBinding),
    ("source",sourceProvenance),("tools",tools),("labels",words),("audit",auditTimestamps)]

def toolNames (v : Value) : List Value := (v.entry "tools").items.map (fun t => t.entry "tool_name")

/-- What a connector's members do not say: its tools' names differ, and only the schema's
side looks at the contract version and into the tools' own schemas. -/
def connectorRules : Sides :=
  (TwoSided.same (fun v => (toolNames v).Nodup)).and
    (schemaOnly (fun v => ContractSupported v ∧ ∀ t ∈ (v.entry "tools").items, SchemaChecked engine t))

def connectorDefinition : Sides := connectorShape.and (connectorRules engine)

omit [Unicode] in
theorem tools_first : Rule.all [Rule.type [.array],Rule.minItems 1,Rule.maxItems 256,Rule.uniqueItems,
    Rule.items Schemas.toolDefinition] v = [] ↔ tools.first v := by
  simp only [Rule.all_cons_eq_nil,Rule.type_array_eq_nil,tools,TwoSided.and,list_first,same_first,schemaOnly_first]
  constructor
  · rintro ⟨⟨values,rfl⟩,some_,short,apart,each,_⟩
    refine ⟨⟨⟨values,rfl,fun w member => toolShape_first.mp (Rule.items_eq_nil.mp each w member)⟩,?_⟩,
      by simpa [Rule.maxItems] using short,by simpa [Rule.uniqueItems] using apart⟩
    simpa [Rule.minItems,Nat.one_le_iff_ne_zero] using some_
  · rintro ⟨⟨⟨values,rfl,each⟩,some_⟩,short,apart⟩
    refine ⟨⟨values,rfl⟩,?_,by simpa [Rule.maxItems] using short,by simpa [Rule.uniqueItems] using apart,
      Rule.items_eq_nil.mpr (fun w member => toolShape_first.mpr (each w member)),rfl⟩
    simpa [Rule.minItems,Nat.one_le_iff_ne_zero] using some_

theorem connectorShape_first (formats : ∀ s, engine.dateTime s = true) :
    Schemas.connectorDefinition engine v = [] ↔ connectorShape.first v :=
  rule_object (.cons ⟨rfl,fun _ => version_first⟩ (.cons ⟨rfl,fun _ => key_first⟩
    (.cons ⟨rfl,fun _ => text_first⟩ (.cons ⟨rfl,fun _ => text_first⟩ (.cons ⟨rfl,fun _ => version_first⟩
    (.cons ⟨rfl,fun _ => oneOf_first⟩ (.cons ⟨rfl,fun _ => runtimeBinding_first⟩
    (.cons ⟨rfl,fun _ => sourceProvenance_first⟩ (.cons ⟨rfl,fun _ => tools_first⟩
    (.cons ⟨rfl,fun _ => words_first⟩ (.cons ⟨rfl,fun _ => auditTimestamps_first formats⟩ .nil)))))))))))

omit [Unicode] [Pydantic] in
/-- The loop over the tools of a connector its schema accepts. -/
theorem validateTools_iff {d : Dict} {items : List Value} (valid : Schemas.connectorDefinition engine (.dict d) = [])
    (listed : Assoc.get (Str.lit "tools") d = some (.list items)) :
    (∃ seen, loop (validateTool engine) [] items.zipIdx = .ok seen) ↔
      (toolNames (.dict d)).Nodup ∧ ∀ t ∈ items, SchemaChecked engine t := by
  obtain ⟨_,same,_,each⟩ := Rule.object_eq_nil.mp valid
  cases same
  obtain ⟨_,found,accepted⟩ := each (Str.lit "tools",Rule.all [Rule.type [.array],Rule.minItems 1,
    Rule.maxItems 256,Rule.uniqueItems,Rule.items Schemas.toolDefinition]) (by simp)
  cases listed.symm.trans found
  simp only [Rule.all_cons_eq_nil,Rule.items_eq_nil] at accepted
  have stepped := loop_distinct (fun e (member : e ∈ items.zipIdx) =>
    validateTool_eq_ok engine (accepted.2.2.2.2.1 e.1 (List.fst_mem_of_mem_zipIdx member))) []
  have names : items.zipIdx.map (fun e : Value × Nat => e.1.entry "tool_name") = toolNames (.dict d) := by
    have shifted : items.zipIdx.map ((fun t : Value => t.entry "tool_name") ∘ Prod.fst) =
        items.map (fun t => t.entry "tool_name") := by
      rw [← List.map_map,List.zipIdx_map_fst]
    rw [toolNames,Value.entry_dict,Dict.get_of_found listed,Value.items_list]
    exact shifted
  rw [stepped,names]
  refine and_congr_right (fun _ => ?_)
  constructor
  · rintro ⟨_,each⟩ t member
    obtain ⟨i,bound,rfl⟩ := List.mem_iff_getElem.mp member
    exact each (items[i],i) (List.mk_mem_zipIdx_iff_getElem?.mpr (List.getElem?_eq_getElem bound))
  · intro each
    exact ⟨by simp,fun e member => each e.1 (List.fst_mem_of_mem_zipIdx member)⟩

theorem validateConnectorDefinition_iff (formats : ∀ s, engine.dateTime s = true) :
    validateConnectorDefinition engine v = .ok () ↔ (connectorDefinition engine).first v := by
  have sides : (connectorDefinition engine).first v ↔ Schemas.connectorDefinition engine v = [] ∧
      (toolNames v).Nodup ∧ ContractSupported v ∧ ∀ t ∈ (v.entry "tools").items, SchemaChecked engine t :=
    and_congr (connectorShape_first engine formats).symm (and_congr same_first schemaOnly_first)
  rw [validateConnectorDefinition_eq_ok,sides]
  constructor
  · rintro ⟨d,items,seen,versioned,valid,listed,looped⟩
    obtain ⟨rfl,supported⟩ := requireContractVersion_iff.mp versioned
    obtain ⟨apart,checked⟩ := (validateTools_iff engine valid listed).mp ⟨seen,looped⟩
    refine ⟨valid,apart,supported,?_⟩
    rw [Value.entry_dict,Dict.get_of_found listed]
    exact checked
  · rintro ⟨valid,apart,supported,checked⟩
    obtain ⟨d,rfl,_,each⟩ := Rule.object_eq_nil.mp valid
    obtain ⟨_,listed,accepted⟩ := each (Str.lit "tools",Rule.all [Rule.type [.array],Rule.minItems 1,
      Rule.maxItems 256,Rule.uniqueItems,Rule.items Schemas.toolDefinition]) (by simp)
    obtain ⟨items,rfl⟩ := Rule.type_array_eq_nil.mp (Rule.all_cons_eq_nil.mp accepted).1
    rw [Value.entry_dict,Dict.get_of_found listed] at checked
    obtain ⟨seen,looped⟩ := (validateTools_iff engine valid listed).mpr ⟨apart,checked⟩
    exact ⟨d,items,seen,requireContractVersion_iff.mpr ⟨rfl,supported⟩,valid,listed,looped⟩

omit [Unicode] in
theorem tools_second {items : List Value} : tools.second (.list items) ↔
    items ≠ [] ∧ ∃ ts, List.Forall₂ (fun w t => ToolDefinition.read w = some t) items ts := by
  have shape : tools.second (.list items) ↔ (list toolShape).second (.list items) ∧ items ≠ [] := by
    refine (and_iff_left schemaOnly_second).trans (and_congr_right (fun _ => same_second))
  rw [shape,list_second,exists_forall₂,and_comm]
  simp [toolShape_second]

omit [Unicode] in
theorem names_of_read {items : List Value} {ts : List ToolDefinition}
    (each : List.Forall₂ (fun w t => ToolDefinition.read w = some t) items ts) :
    items.map (fun t => t.entry "tool_name") = (ts.map ToolDefinition.toolName).map .str := by
  induction each with
  | nil => rfl
  | cons first _ ih =>
    obtain ⟨d,_,_,_,rfl,_,name,_⟩ := ToolDefinition.read_iff.mp first
    simp only [List.map_cons,ih,Value.entry_dict,Dict.get_of_found name]

theorem connectorDefinition_second :
    (connectorDefinition engine).second v ↔ ∃ c, ConnectorDefinition.read v = some c := by
  have rules : (connectorRules engine).second v ↔ (toolNames v).Nodup :=
    (and_iff_left schemaOnly_second).trans same_second
  have sides : (connectorDefinition engine).second v ↔ connectorShape.second v ∧ (toolNames v).Nodup :=
    and_congr_right (fun _ => rules)
  rw [sides]
  constructor
  · rintro ⟨shape,apart⟩
    obtain ⟨d,rfl,known,each⟩ := object_second.mp shape
    simp only [List.forall_mem_cons] at each
    obtain ⟨⟨_,contractFound,contract⟩,⟨_,keyFound,connectorKey⟩,⟨_,displayFound,display⟩,⟨_,summaryFound,summary⟩,
      ⟨_,versionFound,numbered⟩,⟨_,stateFound,state⟩,⟨_,runtimeFound,runtime⟩,⟨_,sourceFound,source⟩,
      ⟨_,toolsFound,listed⟩,⟨_,labelsFound,labels⟩,⟨_,auditFound,audit⟩,_⟩ := each
    obtain ⟨c,rfl,contractTaken⟩ := version_second.mp contract
    obtain ⟨k,rfl,keyTaken⟩ := key_second.mp connectorKey
    obtain ⟨shown,rfl,displayTaken⟩ := text_second.mp display
    obtain ⟨told,rfl,summaryTaken⟩ := text_second.mp summary
    obtain ⟨n,rfl,numberTaken⟩ := version_second.mp numbered
    obtain ⟨l,_,rfl⟩ := (oneOf_second LifecycleState.text [.draft,.published,.disabled]).mp state
    obtain ⟨r,runtimeRead⟩ := runtimeBinding_second.mp runtime
    obtain ⟨p,sourceRead⟩ := sourceProvenance_second.mp source
    obtain ⟨items,rfl⟩ := same_second.mp listed.1.1.1
    obtain ⟨some_,ts,toolsRead⟩ := tools_second.mp listed
    obtain ⟨texts,rfl,labelsTaken⟩ := words_second.mp labels
    obtain ⟨a,auditRead⟩ := auditTimestamps_second.mp audit
    rw [toolNames,Value.entry_dict,Dict.get_of_found toolsFound,Value.items_list,names_of_read toolsRead,
      nodup_texts] at apart
    have atLeastOne : 1 ≤ ts.length := by
      rw [← toolsRead.length_eq]
      exact List.length_pos_of_ne_nil some_
    exact ⟨⟨c,k,shown,told,n,l,r,p,ts,texts,a,contractTaken,keyTaken,displayTaken,summaryTaken,numberTaken,
      atLeastOne,labelsTaken,apart⟩,ConnectorDefinition.read_iff.mpr ⟨d,_,_,_,items,rfl,known,contractFound,keyFound,
      displayFound,summaryFound,versionFound,stateFound,runtimeFound,runtimeRead,sourceFound,sourceRead,toolsFound,
      toolsRead,labelsFound,auditFound,auditRead⟩⟩
  · rintro ⟨c,read⟩
    obtain ⟨d,_,_,_,items,rfl,known,contract,connectorKey,display,summary,numbered,state,runtimeFound,runtime,
      sourceFound,source,toolsFound,toolsRead,labels,auditFound,audit⟩ := ConnectorDefinition.read_iff.mp read
    obtain ⟨contractTaken,keyTaken,displayTaken,summaryTaken,numberTaken,atLeastOne,labelsTaken,apart⟩ := c.accepted
    constructor
    · have some_ : items ≠ [] := by
        rw [← List.length_pos_iff,toolsRead.length_eq]
        exact atLeastOne
      refine object_second.mpr ⟨d,rfl,known,?_⟩
      simp only [List.forall_mem_cons]
      exact ⟨⟨_,contract,version_second.mpr ⟨_,rfl,contractTaken⟩⟩,⟨_,connectorKey,key_second.mpr ⟨_,rfl,keyTaken⟩⟩,
        ⟨_,display,text_second.mpr ⟨_,rfl,displayTaken⟩⟩,⟨_,summary,text_second.mpr ⟨_,rfl,summaryTaken⟩⟩,
        ⟨_,numbered,version_second.mpr ⟨_,rfl,numberTaken⟩⟩,
        ⟨_,state,(oneOf_second LifecycleState.text [.draft,.published,.disabled]).mpr
          ⟨c.lifecycleState,by cases c.lifecycleState <;> simp,rfl⟩⟩,
        ⟨_,runtimeFound,runtimeBinding_second.mpr ⟨_,runtime⟩⟩,⟨_,sourceFound,sourceProvenance_second.mpr ⟨_,source⟩⟩,
        ⟨_,toolsFound,tools_second.mpr ⟨some_,_,toolsRead⟩⟩,⟨_,labels,words_second.mpr ⟨_,rfl,labelsTaken⟩⟩,
        ⟨_,auditFound,auditTimestamps_second.mpr ⟨_,audit⟩⟩,by simp⟩
    · rw [toolNames,Value.entry_dict,Dict.get_of_found toolsFound,Value.items_list,names_of_read toolsRead,nodup_texts]
      exact apart

end Sides

end ToolLayer
