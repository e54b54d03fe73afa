import ToolLayer.Contracts.Dump

/-! What a document has to be for `model_validate` to make a given model of it. -/
namespace ToolLayer
open Python Kit Kit.Result

namespace Read

variable {M A : Type} {d : Dict} {name : Str}

theorem members_iff {fields : List Str} {v : Value} :
    members fields v = some d ↔ v = .dict d ∧ ∀ m ∈ d, m.1 ∈ fields := by
  constructor
  · exact members_eq_some
  · rintro ⟨rfl,known⟩
    exact members_of_subset known

theorem field_iff {read : Value → Option M} {m : M} :
    field d name read = some m ↔ ∃ v, Assoc.get name d = some v ∧ read v = some m := by
  simp [field,Option.bind_eq_some_iff]

theorem text_iff {v : Value} {s : Str} : text v = some s ↔ v = .str s := by
  cases v <;> simp [text]

theorem field_text {s : Str} : field d name text = some s ↔ Assoc.get name d = some (.str s) := by
  simp [field_iff,text_iff]

theorem literal_iff {spelling : A → Str} {values : List A} {v : Value} {a : A}
    (spelled : values.find? (fun b => spelling b == spelling a) = some a) :
    literal spelling values v = some a ↔ v = .str (spelling a) := by
  constructor
  · intro read
    cases v with
    | str s =>
      have same : spelling a = s := by simpa using List.find?_some read
      rw [same]
    | _ => cases read
  · rintro rfl
    exact spelled

theorem field_literal {spelling : A → Str} {values : List A} {a : A}
    (spelled : values.find? (fun b => spelling b == spelling a) = some a) :
    field d name (literal spelling values) = some a ↔ Assoc.get name d = some (.str (spelling a)) := by
  simp [field_iff,literal_iff spelled]

/-- A field that can only be one text. -/
theorem field_constant {s : Str} :
    (∃ t, field d name (literal id [s]) = some t) ↔ Assoc.get name d = some (.str s) := by
  have spelled : [s].find? (fun b => id b == id s) = some s := by simp
  constructor
  · rintro ⟨t,read⟩
    have same : t = s := by
      obtain ⟨v,_,found⟩ := field_iff.mp read
      cases v with
      | str w => simpa using List.mem_of_find?_eq_some found
      | _ => cases found
    rw [same] at read
    exact (field_literal spelled).mp read
  · intro found
    exact ⟨s,(field_literal spelled).mpr found⟩

theorem nullable_text {v : Value} {o : Option Str} : nullable text v = some o ↔ v = textOrNull o := by
  cases v <;> cases o <;> simp [nullable,text,textOrNull,eq_comm]

theorem field_nullable_text {o : Option Str} :
    field d name (nullable text) = some o ↔ Assoc.get name d = some (textOrNull o) := by
  simp [field_iff,nullable_text]

/-- A list whose items read as the given models, in order. -/
theorem tuple_iff {read : Value → Option M} {v : Value} {out : List M} :
    tuple read v = some out ↔ ∃ items, v = .list items ∧ List.Forall₂ (fun w m => read w = some m) items out := by
  constructor
  · intro done
    cases v with
    | list items => exact ⟨items,rfl,mapM_eq_some.mp done⟩
    | _ => cases done
  · rintro ⟨items,rfl,each⟩
    exact mapM_eq_some.mpr each

theorem tuple_text {v : Value} {texts : List Str} : tuple text v = some texts ↔ v = .list (texts.map .str) := by
  simp only [tuple_iff,text_iff]
  constructor
  · rintro ⟨items,rfl,each⟩
    congr 1
    induction each with
    | nil => rfl
    | cons first _ ih => rw [first,ih,List.map_cons]
  · rintro rfl
    refine ⟨_,rfl,?_⟩
    rw [List.forall₂_map_left_iff]
    exact List.forall₂_same.mpr (fun s _ => rfl)

theorem field_tuple_text {texts : List Str} :
    field d name (tuple text) = some texts ↔ Assoc.get name d = some (.list (texts.map .str)) := by
  simp [field_iff,tuple_text]

theorem dictionary_iff {v : Value} {members : Dict} : dictionary v = some members ↔ v = .dict members := by
  cases v <;> simp [dictionary]

end Read


theorem HttpMethod.spelled_upper (m : HttpMethod) :
    HttpMethod.all.find? (fun n => n.upper == m.upper) = some m := by
  cases m <;> decide

theorem HttpMethod.spelled_lower (m : HttpMethod) :
    HttpMethod.all.find? (fun n => n.lower == m.lower) = some m := by
  cases m <;> decide

theorem ArgumentBinding.read_iff {v : Value} {b : ArgumentBinding} : read v = some b ↔
    ∃ d : Dict, v = .dict d ∧ (∀ m ∈ d, m.1 ∈ fields) ∧
      Assoc.get (Str.lit "argument_pointer") d = some (.str b.argumentPointer) ∧
      Assoc.get (Str.lit "target") d = some (.str b.target.text) ∧
      Assoc.get (Str.lit "target_name") d = some (.str b.targetName) := by
  have spelled (t : BindingTarget) :
      [BindingTarget.path,.query,.header,.body].find? (fun u => u.text == t.text) = some t := by
    cases t <;> decide
  unfold read
  simp only [Option.bind_eq_bind,Option.bind_eq_some_iff,Read.members_iff,Read.field_text,
    Read.field_literal (spelled _),toOption_eq_some,make,validated_eq_ok]
  constructor
  · rintro ⟨d,⟨rfl,known⟩,_,pointer,_,target,_,name,_,rfl⟩
    exact ⟨d,rfl,known,pointer,target,name⟩
  · rintro ⟨d,rfl,known,pointer,target,name⟩
    exact ⟨d,⟨rfl,known⟩,_,pointer,_,target,_,name,b.accepted,rfl⟩

namespace ToolOperation

theorem field_mediaType {d : Dict} {name : Str} {jsonBody : Bool} :
    (∃ media, Read.field d name (Read.nullable (Read.literal id [Str.lit "application/json"])) = some media ∧
      media.isSome = jsonBody) ↔ Assoc.get name d = some (mediaType jsonBody) := by
  have spelled : [Str.lit "application/json"].find? (fun u => id u == id (Str.lit "application/json")) =
      some (Str.lit "application/json") := by decide
  constructor
  · rintro ⟨media,read,rfl⟩
    obtain ⟨v,found,read⟩ := Read.field_iff.mp read
    rw [found]
    cases v with
    | null =>
      cases read
      rfl
    | str s =>
      obtain ⟨t,same,rfl⟩ := Option.map_eq_some_iff.mp read
      have member := List.mem_of_find?_eq_some same
      rw [List.mem_singleton] at member
      have equal : t = s := by simpa using List.find?_some same
      rw [← equal,member]
      rfl
    | _ => cases read
  · intro found
    cases jsonBody with
    | false => exact ⟨none,Read.field_iff.mpr ⟨_,found,rfl⟩,rfl⟩
    | true =>
      refine ⟨some "application/json",Read.field_iff.mpr ⟨_,found,?_⟩,rfl⟩
      exact Read.nullable_eq_some ((Read.literal_iff spelled).mpr rfl) (by simp [mediaType])

theorem read_iff {v : Value} {o : ToolOperation} : read v = some o ↔
    ∃ (d : Dict) (bindings : List Value), v = .dict d ∧ (∀ m ∈ d, m.1 ∈ fields) ∧
      Assoc.get (Str.lit "protocol") d = some (.str "http") ∧
      Assoc.get (Str.lit "method") d = some (.str o.method.upper) ∧
      Assoc.get (Str.lit "path_template") d = some (.str o.pathTemplate) ∧
      Assoc.get (Str.lit "bindings") d = some (.list bindings) ∧
      List.Forall₂ (fun w b => ArgumentBinding.read w = some b) bindings o.bindings ∧
      Assoc.get (Str.lit "request_body_media_type") d = some (mediaType o.jsonBody) := by
  unfold read
  simp only [Option.bind_eq_bind,Option.bind_eq_some_iff,Read.members_iff,Read.field_text,
    Read.field_literal (HttpMethod.spelled_upper _),toOption_eq_some,make,validated_eq_ok]
  constructor
  · rintro ⟨d,⟨rfl,known⟩,_,protocol,_,method,_,path,_,listed,_,media,_,rfl⟩
    obtain ⟨_,found,read⟩ := Read.field_iff.mp listed
    obtain ⟨bindings,rfl,each⟩ := Read.tuple_iff.mp read
    exact ⟨d,bindings,rfl,known,Read.field_constant.mp ⟨_,protocol⟩,method,path,found,each,
      field_mediaType.mp ⟨_,media,rfl⟩⟩
  · rintro ⟨d,bindings,rfl,known,protocol,method,path,found,each,media⟩
    obtain ⟨_,protocol⟩ := Read.field_constant.mpr protocol
    obtain ⟨_,media,same⟩ := field_mediaType.mpr media
    refine ⟨d,⟨rfl,known⟩,_,protocol,_,method,_,path,o.bindings,?_,_,media,?_,?_⟩
    · exact Read.field_iff.mpr ⟨_,found,Read.tuple_iff.mpr ⟨bindings,rfl,each⟩⟩
    · rw [same]
      exact o.accepted
    · simp only [same]

end ToolOperation

theorem ToolAccessPolicy.read_iff {v : Value} {a : ToolAccessPolicy} : read v = some a ↔
    ∃ (d : Dict) (roles : List Str), v = .dict d ∧ (∀ m ∈ d, m.1 ∈ fields) ∧
      Assoc.get (Str.lit "access_mode") d = some (.str a.accessMode.text) ∧
      Assoc.get (Str.lit "allowed_roles") d = some (.list (roles.map .str)) ∧
      roles.insertionSort (fun x y => Str.le x y = true) = a.allowedRoles := by
  have spelled (m : AccessMode) : [AccessMode.isPublic,.restricted].find? (fun n => n.text == m.text) = some m := by
    cases m <;> decide
  unfold read
  simp only [Option.bind_eq_bind,Option.bind_eq_some_iff,Read.members_iff,Read.field_tuple_text,
    Read.field_literal (spelled _),toOption_eq_some,make,validated_eq_ok]
  constructor
  · rintro ⟨d,⟨rfl,known⟩,_,mode,roles,listed,_,rfl⟩
    exact ⟨d,roles,rfl,known,mode,listed,rfl⟩
  · rintro ⟨d,roles,rfl,known,mode,listed,sorted⟩
    refine ⟨d,⟨rfl,known⟩,_,mode,roles,listed,?_,?_⟩
    · rw [sorted]
      exact a.accepted
    · simp only [sorted]

theorem RuntimeBinding.read_iff [Unicode] {v : Value} {r : RuntimeBinding} : RuntimeBinding.read v = some r ↔
    ∃ d : Dict, v = .dict d ∧ (∀ m ∈ d, m.1 ∈ fields) ∧
      Assoc.get (Str.lit "protocol") d = some (.str "http") ∧
      Assoc.get (Str.lit "base_url") d = some (.str r.baseUrl) ∧
      Assoc.get (Str.lit "auth_profile_ref") d = some (textOrNull r.authProfileRef) := by
  unfold RuntimeBinding.read
  simp only [Option.bind_eq_bind,Option.bind_eq_some_iff,Read.members_iff,Read.field_text,
    Read.field_nullable_text,toOption_eq_some,validated_eq_ok]
  constructor
  · rintro ⟨d,⟨rfl,known⟩,_,protocol,_,baseUrl,_,profile,_,rfl⟩
    exact ⟨d,rfl,known,Read.field_constant.mp ⟨_,protocol⟩,baseUrl,profile⟩
  · rintro ⟨d,rfl,known,protocol,baseUrl,profile⟩
    obtain ⟨_,protocol⟩ := Read.field_constant.mpr protocol
    exact ⟨d,⟨rfl,known⟩,_,protocol,_,baseUrl,_,profile,r.accepted,rfl⟩

theorem SnapshotSignature.read_iff {v : Value} {s : SnapshotSignature} : SnapshotSignature.read v = some s ↔
    ∃ d : Dict, v = .dict d ∧ (∀ m ∈ d, m.1 ∈ fields) ∧
      Assoc.get (Str.lit "algorithm") d = some (.str "ed25519") ∧
      Assoc.get (Str.lit "key_id") d = some (.str s.keyId) ∧
      Assoc.get (Str.lit "value") d = some (.str s.value) := by
  unfold SnapshotSignature.read
  simp only [Option.bind_eq_bind,Option.bind_eq_some_iff,Read.members_iff,Read.field_text,
    toOption_eq_some,validated_eq_ok]
  constructor
  · rintro ⟨d,⟨rfl,known⟩,_,algorithm,_,keyId,_,value,_,rfl⟩
    exact ⟨d,rfl,known,Read.field_constant.mp ⟨_,algorithm⟩,keyId,value⟩
  · rintro ⟨d,rfl,known,algorithm,keyId,value⟩
    obtain ⟨_,algorithm⟩ := Read.field_constant.mpr algorithm
    exact ⟨d,⟨rfl,known⟩,_,algorithm,_,keyId,_,value,s.accepted,rfl⟩

theorem Read.nullable_signature {v : Value} {o : Option SnapshotSignature} :
    Read.nullable SnapshotSignature.read v = some o ↔
      (v = .null ∧ o = none) ∨ ∃ s, SnapshotSignature.read v = some s ∧ o = some s := by
  cases v with
  | null => simp [Read.nullable,SnapshotSignature.read,Read.members,eq_comm]
  | _ => simp [Read.nullable,eq_comm]

variable [Pydantic]

theorem ToolPolicy.read_iff {v : Value} {p : ToolPolicy} : ToolPolicy.read v = some p ↔
    ∃ (d : Dict) (confirmation access : Value), v = .dict d ∧
      (∀ m ∈ d, m.1 ∈ ([Str.lit "effect_class",Str.lit "requires_confirmation",Str.lit "access"] : List Str)) ∧
      Assoc.get (Str.lit "effect_class") d = some (.str p.effectClass.text) ∧
      Assoc.get (Str.lit "requires_confirmation") d = some confirmation ∧
      Pydantic.laxBool confirmation = some p.requiresConfirmation ∧
      Assoc.get (Str.lit "access") d = some access ∧ ToolAccessPolicy.read access = some p.access := by
  have spelled (e : EffectClass) : EffectClass.all.find? (fun f => f.text == e.text) = some e := by
    cases e <;> decide
  unfold ToolPolicy.read
  simp only [Option.bind_eq_bind,Option.bind_eq_some_iff,Read.members_iff,Read.field_literal (spelled _),
    Read.field_iff,Option.pure_def,Option.some.injEq]
  constructor
  · rintro ⟨d,⟨rfl,known⟩,_,effect,_,⟨confirmation,found,lax⟩,_,⟨access,present,read⟩,rfl⟩
    exact ⟨d,confirmation,access,rfl,known,effect,found,lax,present,read⟩
  · rintro ⟨d,confirmation,access,rfl,known,effect,found,lax,present,read⟩
    exact ⟨d,⟨rfl,known⟩,_,effect,_,⟨confirmation,found,lax⟩,_,⟨access,present,read⟩,rfl⟩

theorem ToolProvenance.read_iff {v : Value} {p : ToolProvenance} : read v = some p ↔
    ∃ (d : Dict) (deprecated : Value), v = .dict d ∧ (∀ m ∈ d, m.1 ∈ fields) ∧
      Assoc.get (Str.lit "source_operation_id") d = some (textOrNull p.sourceOperationId) ∧
      Assoc.get (Str.lit "source_path") d = some (.str p.sourcePath) ∧
      Assoc.get (Str.lit "source_method") d = some (.str p.sourceMethod.lower) ∧
      Assoc.get (Str.lit "tags") d = some (.list (p.tags.map .str)) ∧
      Assoc.get (Str.lit "deprecated") d = some deprecated ∧ Pydantic.laxBool deprecated = some p.deprecated ∧
      Assoc.get (Str.lit "description_origin") d = some (.str p.descriptionOrigin.text) := by
  have spelled (o : DescriptionOrigin) : DescriptionOrigin.all.find? (fun q => q.text == o.text) = some o := by
    cases o <;> decide
  unfold read
  simp only [Option.bind_eq_bind,Option.bind_eq_some_iff,Read.members_iff,Read.field_text,Read.field_nullable_text,
    Read.field_tuple_text,Read.field_literal (spelled _),Read.field_literal (HttpMethod.spelled_lower _),
    toOption_eq_some,make,validated_eq_ok]
  constructor
  · rintro ⟨d,⟨rfl,known⟩,_,operationId,_,path,_,method,_,tags,_,lax,_,origin,_,rfl⟩
    obtain ⟨deprecated,found,lax⟩ := Read.field_iff.mp lax
    exact ⟨d,deprecated,rfl,known,operationId,path,method,tags,found,lax,origin⟩
  · rintro ⟨d,deprecated,rfl,known,operationId,path,method,tags,found,lax,origin⟩
    exact ⟨d,⟨rfl,known⟩,_,operationId,_,path,_,method,_,tags,_,Read.field_iff.mpr ⟨_,found,lax⟩,_,origin,
      p.accepted,rfl⟩

theorem ToolDefinition.read_iff {v : Value} {t : ToolDefinition} : read v = some t ↔
    ∃ (d : Dict) (operation policy provenance : Value), v = .dict d ∧ (∀ m ∈ d, m.1 ∈ fields) ∧
      Assoc.get (Str.lit "tool_name") d = some (.str t.toolName) ∧
      Assoc.get (Str.lit "display_name") d = some (.str t.displayName) ∧
      Assoc.get (Str.lit "description") d = some (.str t.description) ∧
      Assoc.get (Str.lit "input_schema") d = some (.dict t.inputSchema) ∧
      Assoc.get (Str.lit "operation") d = some operation ∧ ToolOperation.read operation = some t.operation ∧
      Assoc.get (Str.lit "policy") d = some policy ∧ ToolPolicy.read policy = some t.policy ∧
      Assoc.get (Str.lit "provenance") d = some provenance ∧ ToolProvenance.read provenance = some t.provenance := by
  unfold read
  simp only [Option.bind_eq_bind,Option.bind_eq_some_iff,Read.members_iff,Read.field_text,
    toOption_eq_some,make,validated_eq_ok]
  constructor
  · rintro ⟨d,⟨rfl,known⟩,_,toolName,_,displayName,_,description,_,schema,_,operation,_,policy,_,provenance,_,rfl⟩
    obtain ⟨_,schemaFound,schemaRead⟩ := Read.field_iff.mp schema
    cases Read.dictionary_iff.mp schemaRead
    obtain ⟨operation,operationFound,operationRead⟩ := Read.field_iff.mp operation
    obtain ⟨policy,policyFound,policyRead⟩ := Read.field_iff.mp policy
    obtain ⟨provenance,provenanceFound,provenanceRead⟩ := Read.field_iff.mp provenance
    exact ⟨d,operation,policy,provenance,rfl,known,toolName,displayName,description,schemaFound,operationFound,
      operationRead,policyFound,policyRead,provenanceFound,provenanceRead⟩
  · rintro ⟨d,operation,policy,provenance,rfl,known,toolName,displayName,description,schemaFound,operationFound,
      operationRead,policyFound,policyRead,provenanceFound,provenanceRead⟩
    exact ⟨d,⟨rfl,known⟩,_,toolName,_,displayName,_,description,
      _,Read.field_iff.mpr ⟨_,schemaFound,Read.dictionary_iff.mpr rfl⟩,
      _,Read.field_iff.mpr ⟨_,operationFound,operationRead⟩,_,Read.field_iff.mpr ⟨_,policyFound,policyRead⟩,
      _,Read.field_iff.mpr ⟨_,provenanceFound,provenanceRead⟩,t.accepted,rfl⟩

theorem SourceProvenance.read_iff {v : Value} {p : SourceProvenance} : SourceProvenance.read v = some p ↔
    ∃ (d : Dict) (byteLength : Value), v = .dict d ∧ (∀ m ∈ d, m.1 ∈ fields) ∧
      Assoc.get (Str.lit "format") d = some (.str "openapi") ∧
      Assoc.get (Str.lit "spec_version") d = some (.str p.specVersion) ∧
      Assoc.get (Str.lit "document_filename") d = some (.str p.documentFilename) ∧
      Assoc.get (Str.lit "document_digest") d = some (.str p.documentDigest) ∧
      Assoc.get (Str.lit "byte_length") d = some byteLength ∧ Pydantic.laxInt byteLength = some p.byteLength := by
  unfold SourceProvenance.read
  simp only [Option.bind_eq_bind,Option.bind_eq_some_iff,Read.members_iff,Read.field_text,
    toOption_eq_some,validated_eq_ok]
  constructor
  · rintro ⟨d,⟨rfl,known⟩,_,format,_,specVersion,_,filename,_,digest,_,lax,_,rfl⟩
    obtain ⟨byteLength,found,lax⟩ := Read.field_iff.mp lax
    exact ⟨d,byteLength,rfl,known,Read.field_constant.mp ⟨_,format⟩,specVersion,filename,digest,found,lax⟩
  · rintro ⟨d,byteLength,rfl,known,format,specVersion,filename,digest,found,lax⟩
    obtain ⟨_,format⟩ := Read.field_constant.mpr format
    exact ⟨d,⟨rfl,known⟩,_,format,_,specVersion,_,filename,_,digest,_,Read.field_iff.mpr ⟨_,found,lax⟩,p.accepted,rfl⟩

theorem AuditTimestamps.read_iff {v : Value} {a : AuditTimestamps} : AuditTimestamps.read v = some a ↔
    ∃ d : Dict, v = .dict d ∧ (∀ m ∈ d, m.1 ∈ fields) ∧
      Assoc.get (Str.lit "created_at") d = some (.str a.createdAt) ∧
      Assoc.get (Str.lit "updated_at") d = some (.str a.updatedAt) ∧
      Assoc.get (Str.lit "published_at") d = some (textOrNull a.publishedAt) := by
  unfold AuditTimestamps.read
  simp only [Option.bind_eq_bind,Option.bind_eq_some_iff,Read.members_iff,Read.field_text,
    Read.field_nullable_text,toOption_eq_some,validated_eq_ok]
  constructor
  · rintro ⟨d,⟨rfl,known⟩,_,created,_,updated,_,published,_,rfl⟩
    exact ⟨d,rfl,known,created,updated,published⟩
  · rintro ⟨d,rfl,known,created,updated,published⟩
    exact ⟨d,⟨rfl,known⟩,_,created,_,updated,_,published,a.accepted,rfl⟩

variable [Unicode]

theorem ConnectorDefinition.read_iff {v : Value} {c : ConnectorDefinition} : ConnectorDefinition.read v = some c ↔
    ∃ (d : Dict) (runtime source audit : Value) (tools : List Value), v = .dict d ∧ (∀ m ∈ d, m.1 ∈ fields) ∧
      Assoc.get (Str.lit "contract_version") d = some (.str c.contractVersion) ∧
      Assoc.get (Str.lit "connector_key") d = some (.str c.connectorKey) ∧
      Assoc.get (Str.lit "display_name") d = some (.str c.displayName) ∧
      Assoc.get (Str.lit "summary") d = some (.str c.summary) ∧
      Assoc.get (Str.lit "version") d = some (.str c.version) ∧
      Assoc.get (Str.lit "lifecycle_state") d = some (.str c.lifecycleState.text) ∧
      Assoc.get (Str.lit "runtime") d = some runtime ∧ RuntimeBinding.read runtime = some c.runtime ∧
      Assoc.get (Str.lit "source") d = some source ∧ SourceProvenance.read source = some c.source ∧
      Assoc.get (Str.lit "tools") d = some (.list tools) ∧
      List.Forall₂ (fun w t => ToolDefinition.read w = some t) tools c.tools ∧
      Assoc.get (Str.lit "labels") d = some (.list (c.labels.map .str)) ∧
      Assoc.get (Str.lit "audit") d = some audit ∧ AuditTimestamps.read audit = some c.audit := by
  have spelled (l : LifecycleState) :
      [LifecycleState.draft,.published,.disabled].find? (fun m => m.text == l.text) = some l := by
    cases l <;> decide
  unfold ConnectorDefinition.read
  simp only [Option.bind_eq_bind,Option.bind_eq_some_iff,Read.members_iff,Read.field_text,Read.field_tuple_text,
    Read.field_literal (spelled _),toOption_eq_some,validated_eq_ok]
  constructor
  · rintro ⟨d,⟨rfl,known⟩,_,contractVersion,_,key,_,displayName,_,summary,_,version,_,state,_,runtime,_,source,
      _,tools,_,labels,_,audit,_,rfl⟩
    obtain ⟨runtime,runtimeFound,runtimeRead⟩ := Read.field_iff.mp runtime
    obtain ⟨source,sourceFound,sourceRead⟩ := Read.field_iff.mp source
    obtain ⟨audit,auditFound,auditRead⟩ := Read.field_iff.mp audit
    obtain ⟨_,toolsFound,toolsRead⟩ := Read.field_iff.mp tools
    obtain ⟨tools,rfl,each⟩ := Read.tuple_iff.mp toolsRead
    exact ⟨d,runtime,source,audit,tools,rfl,known,contractVersion,key,displayName,summary,version,state,runtimeFound,
      runtimeRead,sourceFound,sourceRead,toolsFound,each,labels,auditFound,auditRead⟩
  · rintro ⟨d,runtime,source,audit,tools,rfl,known,contractVersion,key,displayName,summary,version,state,runtimeFound,
      runtimeRead,sourceFound,sourceRead,toolsFound,each,labels,auditFound,auditRead⟩
    exact ⟨d,⟨rfl,known⟩,_,contractVersion,_,key,_,displayName,_,summary,_,version,_,state,
      _,Read.field_iff.mpr ⟨_,runtimeFound,runtimeRead⟩,_,Read.field_iff.mpr ⟨_,sourceFound,sourceRead⟩,
      _,Read.field_iff.mpr ⟨_,toolsFound,Read.tuple_iff.mpr ⟨_,rfl,each⟩⟩,_,labels,
      _,Read.field_iff.mpr ⟨_,auditFound,auditRead⟩,c.accepted,rfl⟩

theorem DeploymentSnapshot.read_iff {v : Value} {s : DeploymentSnapshot} : DeploymentSnapshot.read v = some s ↔
    ∃ (d : Dict) (revision : Value) (connectors : List Value), v = .dict d ∧ (∀ m ∈ d, m.1 ∈ fields) ∧
      Assoc.get (Str.lit "contract_version") d = some (.str s.contractVersion) ∧
      Assoc.get (Str.lit "snapshot_id") d = some (.str s.snapshotId) ∧
      Assoc.get (Str.lit "deployment_key") d = some (.str s.deploymentKey) ∧
      Assoc.get (Str.lit "revision") d = some revision ∧ Pydantic.laxInt revision = some s.revision ∧
      Assoc.get (Str.lit "created_at") d = some (.str s.createdAt) ∧
      Assoc.get (Str.lit "snapshot_digest") d = some (.str s.snapshotDigest) ∧
      Assoc.get (Str.lit "connectors") d = some (.list connectors) ∧
      List.Forall₂ (fun w c => ConnectorDefinition.read w = some c) connectors s.connectors ∧
      ((Dict.get d "signature" = .null ∧ s.signature = none) ∨
        ∃ signed, SnapshotSignature.read (Dict.get d "signature") = some signed ∧ s.signature = some signed) := by
  unfold DeploymentSnapshot.read
  simp only [Option.bind_eq_bind,Option.bind_eq_some_iff,Read.members_iff,Read.field_text,
    Read.nullable_signature,toOption_eq_some,validated_eq_ok]
  constructor
  · rintro ⟨d,⟨rfl,known⟩,_,contractVersion,_,snapshotId,_,key,_,lax,_,createdAt,_,digest,_,listed,_,signature,_,rfl⟩
    obtain ⟨revision,revisionFound,lax⟩ := Read.field_iff.mp lax
    obtain ⟨_,found,read⟩ := Read.field_iff.mp listed
    obtain ⟨connectors,rfl,each⟩ := Read.tuple_iff.mp read
    exact ⟨d,revision,connectors,rfl,known,contractVersion,snapshotId,key,revisionFound,lax,createdAt,digest,found,
      each,signature⟩
  · rintro ⟨d,revision,connectors,rfl,known,contractVersion,snapshotId,key,revisionFound,lax,createdAt,digest,found,
      each,signature⟩
    exact ⟨d,⟨rfl,known⟩,_,contractVersion,_,snapshotId,_,key,_,Read.field_iff.mpr ⟨_,revisionFound,lax⟩,_,createdAt,
      _,digest,_,Read.field_iff.mpr ⟨_,found,Read.tuple_iff.mpr ⟨_,rfl,each⟩⟩,_,signature,s.accepted,rfl⟩

end ToolLayer
