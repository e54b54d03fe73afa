import ToolLayer.Contracts.Documents

/-! `model_dump(mode="json")` of the contract models, and that validating a dump
gives a model back. -/
namespace Python.Value
open Kit ToolLayer

mutual
/-- What JSON mode makes of an untyped value. -/
def jsonMode [Pydantic] : Value → Except PyExc Value
  | .list items =>
    match jsonModeList items with
    | .ok out => .ok (.list out)
    | .error e => .error e
  | .dict members =>
    match jsonModeMembers members with
    | .ok out => .ok (.dict out)
    | .error e => .error e
  | .other _ _ (json::_) => .ok json
  -- `PydanticSerializationError` is a `ValueError`.
  | .other _ _ [] => .error .valueError
  | .null => .ok .null
  | .bool b => .ok (.bool b)
  | .int n => .ok (.int n)
  | .float x => .ok (.float x)
  | .str s => .ok (.str s)
def jsonModeList [Pydantic] : List Value → Except PyExc (List Value)
  | [] => .ok []
  | item::rest =>
    match jsonMode item with
    | .error e => .error e
    | .ok first =>
      match jsonModeList rest with
      | .error e => .error e
      | .ok out => .ok (first::out)
def jsonModeMembers [Pydantic] : Dict → Except PyExc Dict
  | [] => .ok []
  | (key,value)::rest =>
    if Pydantic.jsonKey key then
      match jsonMode value with
      | .error e => .error e
      | .ok first =>
        match jsonModeMembers rest with
        | .error e => .error e
        | .ok out => .ok ((key,first)::out)
    else .error .unicodeEncodeError
end

theorem jsonModeMembers_eq_ok [Pydantic] {members out : Dict} (done : jsonModeMembers members = .ok out) :
    Assoc.keys out = Assoc.keys members ∧
      ∀ key value, Assoc.get key members = some value → ∃ dumped, jsonMode value = .ok dumped ∧
        Assoc.get key out = some dumped := by
  induction members generalizing out with
  | nil =>
    cases done
    exact ⟨rfl,by simp⟩
  | cons m rest ih =>
    obtain ⟨k,v⟩ := m
    rw [jsonModeMembers] at done
    split at done
    next writable =>
      split at done
      next => cases done
      next first dumped =>
        split at done
        next => cases done
        next tail rested =>
          cases done
          obtain ⟨keys,each⟩ := ih rested
          refine ⟨by rw [Assoc.keys_cons,Assoc.keys_cons,keys],?_⟩
          intro key value found
          rw [Assoc.get_cons] at found ⊢
          split
          next same =>
            rw [if_pos same] at found
            cases found
            exact ⟨first,dumped,rfl⟩
          next other =>
            rw [if_neg other] at found
            exact each key value found
    next => cases done

/-- JSON mode takes every value of JSON whose keys are plain text. -/
theorem jsonMode_of_every [Pydantic] {v : Value}
    (plain : v.every (fun | .other _ _ _ => false | _ => true) Str.scalar = true) : ∃ out, jsonMode v = .ok out := by
  induction v using Value.induct with
  | list items ih =>
    rw [every_list] at plain
    have done : ∃ out, jsonModeList items = .ok out := by
      induction items with
      | nil => exact ⟨[],rfl⟩
      | cons item rest tail =>
        rw [List.forall_mem_cons] at plain ih
        obtain ⟨first,dumped⟩ := ih.1 plain.1
        obtain ⟨out,rested⟩ := tail ih.2 plain.2
        exact ⟨first::out,by rw [jsonModeList,dumped]; simp only [rested]⟩
    obtain ⟨out,listed⟩ := done
    exact ⟨.list out,by rw [jsonMode,listed]⟩
  | dict members ih =>
    rw [every_dict] at plain
    have done : ∃ out, jsonModeMembers members = .ok out := by
      induction members with
      | nil => exact ⟨[],rfl⟩
      | cons m rest tail =>
        rw [List.forall_mem_cons] at plain ih
        obtain ⟨first,dumped⟩ := ih.1 plain.1.2
        obtain ⟨out,rested⟩ := tail ih.2 plain.2
        exact ⟨(m.1,first)::out,by
          rw [jsonModeMembers,if_pos (Pydantic.jsonKey_scalar m.1 plain.1.1),dumped]
          simp only [rested]⟩
    obtain ⟨out,listed⟩ := done
    exact ⟨.dict out,by rw [jsonMode,listed]⟩
  | other kind repr json ih => cases plain
  | _ => exact ⟨_,rfl⟩

end Python.Value

namespace ToolLayer
open Python Kit Kit.Result

namespace Read

variable {M A B : Type}

theorem members_of_subset {fields : List Str} {d : Dict} (known : ∀ m ∈ d, m.1 ∈ fields) :
    members fields (.dict d) = some d := by
  have all : d.all (fun m => fields.contains m.1) = true := by simpa using known
  rw [members,if_pos all]

theorem members_eq_some {fields : List Str} {v : Value} {d : Dict} (read : members fields v = some d) :
    v = .dict d ∧ ∀ m ∈ d, m.1 ∈ fields := by
  cases v with
  | dict found =>
    simp only [members] at read
    split at read
    next known =>
      cases read
      exact ⟨rfl,by simpa using known⟩
    next => cases read
  | _ => cases read

theorem field_of_get {d : Dict} {name : Str} {v : Value} {read : Value → Option M}
    (found : Assoc.get name d = some v) : field d name read = read v := by
  simp [field,found]

theorem field_eq_some {d : Dict} {name : Str} {read : Value → Option M} {m : M}
    (done : field d name read = some m) : ∃ v, Assoc.get name d = some v ∧ read v = some m := by
  simpa [field,Option.bind_eq_some_iff] using done

theorem tuple_map {read : Value → Option M} {dump : A → Value} {items : List A} {value : A → M}
    (each : ∀ a ∈ items, read (dump a) = some (value a)) :
    tuple read (.list (items.map dump)) = some (items.map value) := by
  rw [tuple]
  induction items with
  | nil => rfl
  | cons a rest ih =>
    rw [List.map_cons,List.mapM_cons,each a (by simp)]
    have tail := ih (fun b member => each b (by simp [member]))
    simp [tail]

theorem tuple_texts (texts : List Str) : tuple text (.list (texts.map .str)) = some texts := by
  have mapped := @tuple_map Str Str text Value.str texts id (fun _ _ => rfl)
  simpa using mapped

theorem tuple_eq_some {read : Value → Option M} {v : Value} {out : List M} (done : tuple read v = some out) :
    ∃ items, v = .list items ∧ List.Forall₂ (fun item m => read item = some m) items out := by
  cases v with
  | list items =>
    exact ⟨items,rfl,mapM_eq_some.mp done⟩
  | _ => cases done

theorem nullable_eq_some {read : Value → Option M} {v : Value} {m : M} (done : read v = some m)
    (other : v ≠ .null) : nullable read v = some (some m) := by
  cases v <;> simp_all [nullable]

end Read

theorem toOption_validated {M : Type} {p : Prop} [Decidable p] {build : p → M} (accepted : p) :
    (validated p build).toOption = some (build accepted) := by
  simp [validated,accepted,Except.toOption]

theorem toOption_eq_some {E M : Type} {x : Except E M} {m : M} : x.toOption = some m ↔ x = .ok m := by
  cases x <;> simp [Except.toOption]

def textOrNull : Option Str → Value
  | some s => .str s
  | none => .null

theorem Read.nullable_textOrNull {read : Value → Option Str} (o : Option Str)
    (accepts : ∀ s ∈ o, read (.str s) = some s) : Read.nullable read (textOrNull o) = some o := by
  cases o with
  | none => rfl
  | some s => exact Read.nullable_eq_some (accepts s rfl) (by simp [textOrNull])

namespace ArgumentBinding

def dump (b : ArgumentBinding) : Value :=
  .dict [("argument_pointer",.str b.argumentPointer),("target",.str b.target.text),
    ("target_name",.str b.targetName)]

theorem make_self (b : ArgumentBinding) : make b.argumentPointer b.target b.targetName = .ok b :=
  validated_eq_ok.mpr ⟨b.accepted,rfl⟩

theorem read_dump (b : ArgumentBinding) : read b.dump = some b := by
  have target : Read.literal BindingTarget.text [.path,.query,.header,.body] (.str b.target.text) = some b.target := by
    cases b.target <;> decide
  unfold read dump
  rw [Read.members_of_subset (by simp [fields])]
  simp [Read.field,Read.text,target,make_self,Except.toOption]

end ArgumentBinding

namespace ToolOperation

def mediaType (jsonBody : Bool) : Value := if jsonBody then .str "application/json" else .null

def dump (o : ToolOperation) : Value :=
  .dict [("protocol",.str "http"),("method",.str o.method.upper),("path_template",.str o.pathTemplate),
    ("bindings",.list (o.bindings.map ArgumentBinding.dump)),("request_body_media_type",mediaType o.jsonBody)]

theorem make_self (o : ToolOperation) : make o.method o.pathTemplate o.bindings o.jsonBody = .ok o :=
  validated_eq_ok.mpr ⟨o.accepted,rfl⟩

theorem read_dump (o : ToolOperation) : read o.dump = some o := by
  have method : Read.literal HttpMethod.upper HttpMethod.all (.str o.method.upper) = some o.method := by
    cases o.method <;> decide
  have bindings : Read.tuple ArgumentBinding.read (.list (o.bindings.map ArgumentBinding.dump)) = some o.bindings := by
    have mapped := @Read.tuple_map _ _ ArgumentBinding.read ArgumentBinding.dump o.bindings id
      (fun b _ => ArgumentBinding.read_dump b)
    simpa using mapped
  have media : Read.nullable (Read.literal id [Str.lit "application/json"]) (mediaType o.jsonBody) =
      some (if o.jsonBody then some (Str.lit "application/json") else none) := by
    cases o.jsonBody <;> decide
  have body : (if o.jsonBody then some (Str.lit "application/json") else none).isSome = o.jsonBody := by
    cases o.jsonBody <;> rfl
  have protocol : Read.literal id [Str.lit "http"] (.str (Str.lit "http")) = some (Str.lit "http") := by decide
  unfold read dump
  rw [Read.members_of_subset (by simp [fields])]
  simp [Read.field,Read.text,protocol,method,bindings,media,body,make_self,Except.toOption]

end ToolOperation

namespace ToolAccessPolicy

def dump (a : ToolAccessPolicy) : Value :=
  .dict [("access_mode",.str a.accessMode.text),("allowed_roles",.list (a.allowedRoles.map .str))]

theorem make_self (a : ToolAccessPolicy) : make a.accessMode a.allowedRoles = .ok a := by
  have ordered : a.allowedRoles.Pairwise (fun x y => Str.le x y = true) := a.accepted.2.2.2
  have sorted : a.allowedRoles.insertionSort (fun x y => Str.le x y = true) = a.allowedRoles :=
    List.Pairwise.insertionSort_eq ordered
  refine validated_eq_ok.mpr ⟨by rw [sorted]; exact a.accepted,?_⟩
  rw [mk.injEq]
  exact ⟨rfl,sorted⟩

theorem read_dump (a : ToolAccessPolicy) : read a.dump = some a := by
  have mode : Read.literal AccessMode.text [.isPublic,.restricted] (.str a.accessMode.text) = some a.accessMode := by
    cases a.accessMode <;> decide
  unfold read dump
  rw [Read.members_of_subset (by simp [fields])]
  simp [Read.field,mode,Read.tuple_texts,make_self,Except.toOption]

end ToolAccessPolicy

def ToolPolicy.dump (p : ToolPolicy) : Value :=
  .dict [("effect_class",.str p.effectClass.text),("requires_confirmation",.bool p.requiresConfirmation),
    ("access",p.access.dump)]

section Tools

variable [Pydantic]

theorem ToolPolicy.read_dump (p : ToolPolicy) : ToolPolicy.read p.dump = some p := by
  have effect : Read.literal EffectClass.text EffectClass.all (.str p.effectClass.text) = some p.effectClass := by
    cases p.effectClass <;> decide
  unfold ToolPolicy.read ToolPolicy.dump
  rw [Read.members_of_subset (by simp)]
  simp [Read.field,effect,Pydantic.laxBool_bool,ToolAccessPolicy.read_dump]

namespace ToolProvenance

def dump (p : ToolProvenance) : Value :=
  .dict [("source_operation_id",textOrNull p.sourceOperationId),("source_path",.str p.sourcePath),
    ("source_method",.str p.sourceMethod.lower),("tags",.list (p.tags.map .str)),("deprecated",.bool p.deprecated),
    ("description_origin",.str p.descriptionOrigin.text)]

theorem make_self (p : ToolProvenance) :
    make p.sourceOperationId p.sourcePath p.sourceMethod p.tags p.deprecated p.descriptionOrigin = .ok p :=
  validated_eq_ok.mpr ⟨p.accepted,rfl⟩

theorem read_dump (p : ToolProvenance) : read p.dump = some p := by
  have method : Read.literal HttpMethod.lower HttpMethod.all (.str p.sourceMethod.lower) = some p.sourceMethod := by
    cases p.sourceMethod <;> decide
  have origin : Read.literal DescriptionOrigin.text DescriptionOrigin.all (.str p.descriptionOrigin.text) =
      some p.descriptionOrigin := by
    cases p.descriptionOrigin <;> decide
  have operationId : Read.nullable Read.text (textOrNull p.sourceOperationId) = some p.sourceOperationId :=
    Read.nullable_textOrNull _ (fun _ _ => rfl)
  unfold read dump
  rw [Read.members_of_subset (by simp [fields])]
  simp [Read.field,Read.text,operationId,method,Read.tuple_texts,Pydantic.laxBool_bool,origin,make_self,Except.toOption]

end ToolProvenance

namespace ToolDefinition

/-- The dump of a tool whose schema came out as `schema`. -/
def dumpWith (t : ToolDefinition) (schema : Dict) : Value :=
  .dict [("tool_name",.str t.toolName),("display_name",.str t.displayName),("description",.str t.description),
    ("input_schema",.dict schema),("operation",t.operation.dump),("policy",t.policy.dump),
    ("provenance",t.provenance.dump)]

def dump (t : ToolDefinition) : Except PyExc Value :=
  match Value.jsonModeMembers t.inputSchema with
  | .ok schema => .ok (t.dumpWith schema)
  | .error e => .error e

theorem dump_eq_ok {t : ToolDefinition} {v : Value} :
    t.dump = .ok v ↔ ∃ schema, Value.jsonModeMembers t.inputSchema = .ok schema ∧ v = t.dumpWith schema := by
  unfold dump
  cases Value.jsonModeMembers t.inputSchema <;> simp [eq_comm]

omit [Pydantic] in
theorem closedObjectSchema_eq_true {schema : Dict} : closedObjectSchema schema = true ↔
    Assoc.get (Str.lit "type") schema = some (.str "object") ∧
    Assoc.get (Str.lit "additionalProperties") schema = some (.bool false) ∧
    Assoc.get (Str.lit "$schema") schema = some (.str dialect) ∧
    (∃ members, Assoc.get (Str.lit "properties") schema = some (.dict members)) ∧
    ∃ items, Assoc.get (Str.lit "required") schema = some (.list items) := by
  have text (key s : Str) : Value.pyEq (Dict.get schema key) (.str s) = true ↔
      Assoc.get key schema = some (.str s) := by
    unfold Dict.get
    cases Assoc.get key schema with
    | none => simp [Value.pyEq]
    | some v => cases v <;> simp [Value.pyEq]
  simp only [closedObjectSchema,Bool.and_eq_true,text]
  constructor
  · rintro ⟨⟨⟨⟨typed,extra⟩,spoken⟩,properties⟩,required⟩
    refine ⟨typed,?_,spoken,?_,?_⟩
    · unfold Dict.get at extra
      revert extra
      cases Assoc.get (Str.lit "additionalProperties") schema with
      | none => simp
      | some v => cases v <;> simp
    · unfold Dict.get at properties
      revert properties
      cases Assoc.get (Str.lit "properties") schema with
      | none => simp
      | some v => cases v <;> simp
    · unfold Dict.get at required
      revert required
      cases Assoc.get (Str.lit "required") schema with
      | none => simp
      | some v => cases v <;> simp
  · rintro ⟨typed,extra,spoken,⟨members,properties⟩,⟨items,required⟩⟩
    simp [typed,extra,spoken,properties,required,Dict.get]

/-- JSON mode keeps a schema closed and its arguments declared. -/
theorem accepts_jsonMode {schema out : Dict} {bindings : List ArgumentBinding}
    (dumped : Value.jsonModeMembers schema = .ok out) (closed : closedObjectSchema schema = true)
    (declared : bindingsDeclared schema bindings = true) :
    closedObjectSchema out = true ∧ bindingsDeclared out bindings = true := by
  obtain ⟨_,each⟩ := Value.jsonModeMembers_eq_ok dumped
  obtain ⟨typed,extra,spoken,⟨members,properties⟩,⟨items,required⟩⟩ := closedObjectSchema_eq_true.mp closed
  obtain ⟨_,image,propertiesOut⟩ := each _ _ properties
  rw [Value.jsonMode] at image
  split at image
  next names namesDumped =>
    cases image
    obtain ⟨keys,_⟩ := Value.jsonModeMembers_eq_ok namesDumped
    constructor
    · apply closedObjectSchema_eq_true.mpr
      obtain ⟨_,typeImage,typeOut⟩ := each _ _ typed
      obtain ⟨_,extraImage,extraOut⟩ := each _ _ extra
      obtain ⟨_,spokenImage,spokenOut⟩ := each _ _ spoken
      obtain ⟨_,requiredImage,requiredOut⟩ := each _ _ required
      cases typeImage
      cases extraImage
      cases spokenImage
      rw [Value.jsonMode] at requiredImage
      refine ⟨typeOut,extraOut,spokenOut,⟨names,propertiesOut⟩,?_⟩
      split at requiredImage
      next list _ =>
        cases requiredImage
        exact ⟨list,requiredOut⟩
      next => cases requiredImage
    · simpa [bindingsDeclared,declaredNames,Dict.get,properties,propertiesOut,keys] using declared
  next => cases image

/-- Validating the dump of a tool gives the tool back, with the dumped schema in it. -/
theorem read_dump {t : ToolDefinition} {v : Value} (dumped : t.dump = .ok v) :
    ∃ again : ToolDefinition, read v = some again ∧ again.toolName = t.toolName ∧
      again.operation = t.operation ∧ again.policy = t.policy := by
  obtain ⟨schema,schemaDumped,rfl⟩ := dump_eq_ok.mp dumped
  obtain ⟨named,displayed,described,closed,declared⟩ := t.accepted
  obtain ⟨closedOut,declaredOut⟩ := accepts_jsonMode schemaDumped closed declared
  let again : ToolDefinition := ⟨t.toolName,t.displayName,t.description,schema,t.operation,t.policy,t.provenance,
    named,displayed,described,closedOut,declaredOut⟩
  have made : make t.toolName t.displayName t.description schema t.operation t.policy t.provenance = .ok again :=
    validated_eq_ok.mpr ⟨again.accepted,rfl⟩
  refine ⟨again,?_,rfl,rfl,rfl⟩
  unfold read dumpWith
  rw [Read.members_of_subset (by simp [fields])]
  simp [Read.field,Read.text,Read.dictionary,ToolOperation.read_dump,ToolPolicy.read_dump,ToolProvenance.read_dump,
    made,Except.toOption]

end ToolDefinition

def RuntimeBinding.dump [Unicode] (r : RuntimeBinding) : Value :=
  .dict [("protocol",.str "http"),("base_url",.str r.baseUrl),("auth_profile_ref",textOrNull r.authProfileRef)]

omit [Pydantic] in
theorem RuntimeBinding.read_dump [Unicode] (r : RuntimeBinding) : RuntimeBinding.read r.dump = some r := by
  have protocol : Read.literal id [Str.lit "http"] (.str (Str.lit "http")) = some (Str.lit "http") := by decide
  have profile : Read.nullable Read.text (textOrNull r.authProfileRef) = some r.authProfileRef :=
    Read.nullable_textOrNull _ (fun _ _ => rfl)
  unfold RuntimeBinding.read RuntimeBinding.dump
  rw [Read.members_of_subset (by simp [RuntimeBinding.fields])]
  simp [Read.field,Read.text,protocol,profile,toOption_validated r.accepted]

def SourceProvenance.dump (p : SourceProvenance) : Value :=
  .dict [("format",.str "openapi"),("spec_version",.str p.specVersion),
    ("document_filename",.str p.documentFilename),("document_digest",.str p.documentDigest),
    ("byte_length",.int p.byteLength)]

theorem SourceProvenance.read_dump (p : SourceProvenance) : SourceProvenance.read p.dump = some p := by
  have format : Read.literal id [Str.lit "openapi"] (.str (Str.lit "openapi")) = some (Str.lit "openapi") := by decide
  unfold SourceProvenance.read SourceProvenance.dump
  rw [Read.members_of_subset (by simp [SourceProvenance.fields])]
  simp [Read.field,Read.text,format,Pydantic.laxInt_int,toOption_validated p.accepted]

def AuditTimestamps.dump (a : AuditTimestamps) : Value :=
  .dict [("created_at",.str a.createdAt),("updated_at",.str a.updatedAt),("published_at",textOrNull a.publishedAt)]

variable [Unicode]

def ConnectorDefinition.dump (c : ConnectorDefinition) : Except PyExc Value := do
  let tools ← each ToolDefinition.dump c.tools
  return .dict [("contract_version",.str c.contractVersion),("connector_key",.str c.connectorKey),
    ("display_name",.str c.displayName),("summary",.str c.summary),("version",.str c.version),
    ("lifecycle_state",.str c.lifecycleState.text),("runtime",c.runtime.dump),("source",c.source.dump),
    ("tools",.list tools),("labels",.list (c.labels.map .str)),("audit",c.audit.dump)]

omit [Unicode] in
/-- The dumps of tools read back as tools of the same names. -/
theorem ToolDefinition.read_dumps {tools : List ToolDefinition} {dumped : List Value}
    (done : each ToolDefinition.dump tools = .ok dumped) :
    ∃ again : List ToolDefinition, Read.tuple ToolDefinition.read (.list dumped) = some again ∧
      again.map ToolDefinition.toolName = tools.map ToolDefinition.toolName := by
  induction tools generalizing dumped with
  | nil =>
    cases done
    exact ⟨[],rfl,rfl⟩
  | cons t rest ih =>
    obtain ⟨v,vs,first,tail,rfl⟩ := each_cons_eq_ok.mp done
    obtain ⟨b,readFirst,named,_⟩ := ToolDefinition.read_dump first
    obtain ⟨bs,readTail,names⟩ := ih tail
    rw [Read.tuple] at readTail
    refine ⟨b::bs,?_,by simp [named,names]⟩
    rw [Read.tuple,List.mapM_cons,readFirst,readTail]
    rfl

omit [Unicode] in
theorem AuditTimestamps.read_dump (a : AuditTimestamps) : AuditTimestamps.read a.dump = some a := by
  have published : Read.nullable Read.text (textOrNull a.publishedAt) = some a.publishedAt :=
    Read.nullable_textOrNull _ (fun _ _ => rfl)
  unfold AuditTimestamps.read AuditTimestamps.dump
  rw [Read.members_of_subset (by simp [AuditTimestamps.fields])]
  simp [Read.field,Read.text,published,toOption_validated a.accepted]

/-- The second validation in the loader of snapshots never refuses. -/
theorem ConnectorDefinition.modelValidate_dump {c : ConnectorDefinition} {v : Value} (dumped : c.dump = .ok v) :
    ∃ again, ConnectorDefinition.modelValidate v = .ok again := by
  obtain ⟨values,toolsDumped,image⟩ := bind_eq_ok.mp dumped
  cases image
  obtain ⟨tools,toolsRead,names⟩ := ToolDefinition.read_dumps toolsDumped
  have state : Read.literal LifecycleState.text [.draft,.published,.disabled] (.str c.lifecycleState.text) =
      some c.lifecycleState := by
    cases c.lifecycleState <;> decide
  obtain ⟨contract,keyed,displayed,summarised,versioned,some_,labelled,distinct⟩ := c.accepted
  have count : tools.length = c.tools.length := by simpa using congrArg List.length names
  have accepted : ConnectorDefinition.Accepts c.contractVersion c.connectorKey c.displayName c.summary c.version
      tools c.labels :=
    ⟨contract,keyed,displayed,summarised,versioned,count ▸ some_,labelled,names ▸ distinct⟩
  have read : ConnectorDefinition.read (.dict [("contract_version",.str c.contractVersion),
      ("connector_key",.str c.connectorKey),("display_name",.str c.displayName),("summary",.str c.summary),
      ("version",.str c.version),("lifecycle_state",.str c.lifecycleState.text),("runtime",c.runtime.dump),
      ("source",c.source.dump),("tools",.list values),("labels",.list (c.labels.map .str)),
      ("audit",c.audit.dump)]) = some ⟨c.contractVersion,c.connectorKey,c.displayName,c.summary,c.version,
        c.lifecycleState,c.runtime,c.source,tools,c.labels,c.audit,accepted⟩ := by
    unfold ConnectorDefinition.read
    rw [Read.members_of_subset (by simp [ConnectorDefinition.fields])]
    simp [Read.field,Read.text,state,RuntimeBinding.read_dump,SourceProvenance.read_dump,toolsRead,Read.tuple_texts,
      AuditTimestamps.read_dump,toOption_validated accepted]
  exact ⟨_,by rw [ConnectorDefinition.modelValidate,read]⟩

section Schemas

variable {leaf : Value → Bool} {text : Str → Bool}

omit [Pydantic] [Unicode] in
/-- What holds throughout a document holds throughout each of its fields. -/
theorem Read.every_of_get {d : Dict} {name : Str} {v : Value} (found : Assoc.get name d = some v)
    (all : Value.every leaf text (.dict d) = true) : v.every leaf text = true :=
  (Value.every_dict.mp all _ (Assoc.mem_of_get found)).2

omit [Unicode] in
theorem ToolDefinition.every_inputSchema {v : Value} {t : ToolDefinition} (read : ToolDefinition.read v = some t)
    (all : v.every leaf text = true) : Value.every leaf text (.dict t.inputSchema) = true := by
  simp only [ToolDefinition.read,Option.bind_eq_bind,Option.bind_eq_some_iff] at read
  obtain ⟨d,members,_,_,_,_,_,_,schema,schemed,_,_,_,_,_,_,built⟩ := read
  obtain ⟨rfl,_⟩ := Read.members_eq_some members
  obtain ⟨value,found,read⟩ := Read.field_eq_some schemed
  obtain ⟨_,rfl⟩ := validated_eq_ok.mp (toOption_eq_some.mp built)
  have inside := Read.every_of_get found all
  cases value with
  | dict members =>
    cases read
    exact inside
  | _ => cases read

theorem ConnectorDefinition.every_inputSchema {v : Value} {c : ConnectorDefinition}
    (read : ConnectorDefinition.read v = some c) (all : v.every leaf text = true) :
    ∀ t ∈ c.tools, Value.every leaf text (.dict t.inputSchema) = true := by
  simp only [ConnectorDefinition.read,Option.bind_eq_bind,Option.bind_eq_some_iff] at read
  obtain ⟨d,members,_,_,_,_,_,_,_,_,_,_,_,_,_,_,_,_,tools,listed,_,_,_,_,built⟩ := read
  obtain ⟨rfl,_⟩ := Read.members_eq_some members
  obtain ⟨value,found,read⟩ := Read.field_eq_some listed
  obtain ⟨_,rfl⟩ := validated_eq_ok.mp (toOption_eq_some.mp built)
  have inside := Read.every_of_get found all
  obtain ⟨items,rfl,each⟩ := Read.tuple_eq_some read
  intro t member
  obtain ⟨item,present,tool⟩ := exists_left each member
  exact ToolDefinition.every_inputSchema tool (Value.every_list.mp inside item present)

/-- A connector read from plain JSON can be dumped. -/
theorem ConnectorDefinition.dump_of_every {c : ConnectorDefinition}
    (plain : ∀ t ∈ c.tools, Value.every (fun | .other _ _ _ => false | _ => true) Str.scalar (.dict t.inputSchema) = true) :
    ∃ v, c.dump = .ok v := by
  have tools : ∃ out, each ToolDefinition.dump c.tools = .ok out := by
    refine each_of_forall ?_
    intro t member
    obtain ⟨_,dumped⟩ := Value.jsonMode_of_every (plain t member)
    rw [Value.jsonMode] at dumped
    split at dumped
    next schema done => exact ⟨_,ToolDefinition.dump_eq_ok.mpr ⟨schema,done,rfl⟩⟩
    next => cases dumped
  obtain ⟨out,done⟩ := tools
  exact ⟨_,by rw [ConnectorDefinition.dump,done]; rfl⟩

end Schemas

end Tools

end ToolLayer
