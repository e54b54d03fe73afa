import ToolLayer.Contracts.PlainSides
import ToolLayer.ControlPlane.Deployable

/-! The documents of published versions before the models: they read every one whose base
URL they read. -/
namespace ToolLayer.ControlPlane
open Python Kit Kit.Result OpenApi

section Tools

theorem scalar_argumentPointer (b : ArgumentBinding) : b.argumentPointer.scalar = true := by
  have accepted := b.accepted.1
  rw [Bool.and_eq_true,Bool.and_eq_true] at accepted
  exact accepted.1.1

theorem reload_operation (o : ToolOperation) : Value.reload o.dump = o.dump := by
  obtain ⟨template,_⟩ := o.accepted
  rw [Bool.and_eq_true] at template
  have method : o.method.upper.scalar = true := by cases o.method <;> decide
  have media : (ToolOperation.mediaType o.jsonBody).distinct = true ∧ (ToolOperation.mediaType o.jsonBody).scalar = true := by
    cases o.jsonBody <;> decide
  have bindings : ∀ w ∈ o.bindings.map ArgumentBinding.dump, w.distinct = true ∧ w.scalar = true := by
    rw [List.forall_mem_map]
    intro b _
    have pointerText := scalar_argumentPointer b
    have target : b.target.text.scalar = true := by cases b.target <;> decide
    have nameText : b.targetName.scalar = true := scalar_of_boundedText (Bool.and_eq_true_iff.mp b.accepted.1).2
    constructor
    · simp only [ArgumentBinding.dump,Value.distinct_dict,Assoc.keys_cons,Assoc.keys_nil,List.forall_mem_cons,
        Value.distinct_str,true_and]
      refine ⟨by decide,?_⟩
      simp
    · simp only [ArgumentBinding.dump,Value.scalar,Value.every_dict,List.forall_mem_cons]
      refine ⟨⟨by decide,pointerText⟩,⟨by decide,target⟩,⟨by decide,nameText⟩,?_⟩
      simp
  have listed : Value.distinct (.list (o.bindings.map ArgumentBinding.dump)) = true :=
    Value.distinct_list.mpr (fun w member => (bindings w member).1)
  have plain : Value.scalar (.list (o.bindings.map ArgumentBinding.dump)) = true :=
    Value.every_list.mpr (fun w member => (bindings w member).2)
  refine Value.reload_of_scalar ?_ ?_
  · simp only [ToolOperation.dump,Value.distinct_dict,Assoc.keys_cons,Assoc.keys_nil,List.forall_mem_cons,
      Value.distinct_str,listed,media.1,true_and]
    refine ⟨by decide,?_⟩
    simp
  · simp only [ToolOperation.dump,Value.scalar,Value.every_dict,List.forall_mem_cons]
    refine ⟨⟨by decide,by decide⟩,⟨by decide,method⟩,⟨by decide,scalar_of_boundedText template.1⟩,⟨by decide,plain⟩,
      ⟨by decide,media.2⟩,?_⟩
    simp

/-- The policy a review writes into a tool. -/
theorem reviewedTool_policy {analyzed : List (Str × Value)} {r : OperationReview} {tool : Value}
    (built : reviewedTool analyzed r = .ok tool) : ∃ after access, tool = .dict after ∧
      Dict.get after "policy" = reviewedPolicy r access := by
  unfold reviewedTool at built
  split at built
  next => cases built
  next =>
    obtain ⟨members,_,built⟩ := bind_eq_ok.mp built
    obtain ⟨access,_,built⟩ := bind_eq_ok.mp built
    obtain ⟨_,_,built⟩ := bind_eq_ok.mp built
    obtain ⟨_,_,built⟩ := bind_eq_ok.mp built
    cases built
    exact ⟨_,access,rfl,by rw [Dict.get_set,if_neg (by decide),Dict.get_set,if_pos rfl]⟩

theorem scalar_bindingRoot {pointer : Str} (plain : pointer.scalar = true) :
    (ToolDefinition.bindingRoot pointer).scalar = true := by
  rw [Str.scalar,List.all_eq_true] at plain ⊢
  intro c member
  refine plain c ((List.dropWhile_sublist (fun c => c == CodePoint.ofChar '/')).subset ?_)
  unfold ToolDefinition.bindingRoot Str.split at member
  cases pieces : Split.cut (fun d => d == CodePoint.ofChar '/') (Str.lstrip (fun c => c == CodePoint.ofChar '/') pointer) with
  | nil =>
    rw [pieces] at member
    cases member
  | cons piece rest =>
    rw [pieces] at member
    exact Split.mem_of_mem_cut _ _ piece (pieces ▸ List.mem_cons_self) c member

variable [Pydantic] [Unicode]

/-- The arguments a converted tool's bindings start in are still declared in the column. -/
theorem Proposal.Converted.declared {p : Proposal} (converted : p.Converted) : ∃ schema,
    Value.reload (.dict p.schema) = .dict schema ∧
      ToolDefinition.bindingsDeclared schema p.tool.operation.bindings = true := by
  obtain ⟨dumped,_,_,_,_,made⟩ := converted
  obtain ⟨table,shape⟩ := convertOperation_inputSchema made
  obtain ⟨_,_,_,closed,declared⟩ := p.tool.accepted
  obtain ⟨closedOut,declaredOut⟩ := ToolDefinition.accepts_jsonMode dumped closed declared
  obtain ⟨keys,_⟩ := Value.jsonModeMembers_eq_ok dumped
  rw [shape] at keys
  obtain ⟨_,_,_,⟨members,properties⟩,_⟩ := ToolDefinition.closedObjectSchema_eq_true.mp closedOut
  simp only [inputSchemaOf,Assoc.keys_cons,Assoc.keys_nil] at keys
  have column := Value.reload_dict (by rw [keys]; decide) (by rw [keys]; decide)
  refine ⟨_,column,?_⟩
  have found : Dict.get (p.schema.map (fun m => (m.1,Value.reload m.2))) "properties" =
      .dict (Value.reloadMembers [] members) := by
    rw [Dict.get,Assoc.get_map,properties]
    rfl
  simp only [ToolDefinition.bindingsDeclared,ToolDefinition.declaredNames,found,List.all_eq_true,decide_eq_true_eq]
  simp only [ToolDefinition.bindingsDeclared,ToolDefinition.declaredNames,Dict.get_of_found properties,List.all_eq_true,
    decide_eq_true_eq] at declaredOut
  intro b member
  rw [Value.mem_keys_reloadMembers]
  exact .inr ⟨_,declaredOut b member,Str.paired_scalar (scalar_bindingRoot (scalar_argumentPointer b))⟩

/-- The model asks nothing more of a reviewed tool. -/
theorem reviewedTool_secondOnly {p : Proposal} (converted : p.Converted) {r : OperationReview} {after : Dict}
    (reviewed : ReviewedAs (storedTool p.tool p.schema) r after) {access : ToolAccessPolicy}
    (policy : Dict.get after "policy" = reviewedPolicy r access) (plain : Value.scalar (.dict after) = true) :
    Sides.toolShape.secondOnly (.dict after) := by
  obtain ⟨schema,column,declared⟩ := converted.declared
  have kept {name : Str} {w : Value} (other : name ∉ ([Str.lit "description",Str.lit "policy",Str.lit "provenance"] : List Str))
      (found : Assoc.get name after = some w) : w = Dict.get (storedTool p.tool p.schema) name := by
    rw [← reviewed.kept.2 name other,Dict.get_of_found found]
  refine Sides.toolShape_secondOnly plain ?_ ?_ ?_ ?_
  · intro s found
    have name := kept (by decide) found
    cases name
    exact (Bool.and_eq_true_iff.mp p.tool.accepted.1).2
  · intro w found
    have same : w = p.tool.operation.dump := (kept (by decide) found).trans (reload_operation _)
    rw [same]
    exact ((Sides.toolOperation.second_iff _).mp
      (Sides.toolOperation_second.mpr ⟨_,ToolOperation.read_dump p.tool.operation⟩)).2
  · intro w found
    rw [Dict.get_of_found found] at policy
    rw [policy]
    refine Sides.object_secondOnly.mpr ?_
    simp only [List.forall_mem_cons]
    refine ⟨fun _ _ _ _ => trivial,fun _ _ _ _ => trivial,?_,by simp⟩
    rintro _ w ⟨⟩ there
    cases there
    exact ((Sides.toolAccessPolicy.second_iff _).mp
      (Sides.toolAccessPolicy_second.mpr ⟨_,ToolAccessPolicy.read_dump access⟩)).2
  · have fields : ∀ name, name ∈ Assoc.keys (storedTool p.tool p.schema) → ∃ w, Assoc.get name after = some w := by
      intro name known
      rw [← reviewed.kept.1,← Assoc.get_isSome_iff] at known
      exact Option.isSome_iff_exists.mp known
    obtain ⟨input,stored⟩ := fields "input_schema" (by simp [storedTool])
    obtain ⟨operation,bound⟩ := fields "operation" (by simp [storedTool])
    have isInput : input = .dict schema := (kept (by decide) stored).trans column
    have isOperation : operation = p.tool.operation.dump := (kept (by decide) bound).trans (reload_operation _)
    subst isInput isOperation
    exact (Sides.argumentsDeclared_iff (ToolOperation.read_dump _) bound stored).mpr declared

end Tools

section Publication

/-- The base URL a connector document was published with. -/
def originOf (document : Dict) : Value := ((Value.dict document).entry "runtime").entry "base_url"

variable [Pydantic] [Unicode]

/-- What the models make of a published version: they read it if they read its base URL. -/
structure PublishedVersion.Checked (engine : SchemaEngine) (row : PublishedVersion) (url : Str) : Prop where
  valid : validateConnectorDefinition engine (.dict row.document) = .ok ()
  published : Dict.get row.document "lifecycle_state" = .str "published"
  origin : originOf row.document = .str url
  readable_iff : (∃ c, ConnectorDefinition.modelValidate (.dict row.document) = .ok c) ↔ reviewedOrigin url = true

/-- A text that meets a pattern up to a final line break meets it. -/
def Settled (exact : Str → Bool) (s : Str) : Prop := Patterns.beforeFinalNewline exact s = true → exact s = true

/-- What registration and the request models see to in a draft. -/
structure ConnectorDraft.Settled (d : ConnectorDraft) : Prop where
  version : ControlPlane.Settled Patterns.semver d.proposedVersion
  digest : Patterns.digest d.sourceDigest = true

omit [Pydantic] [Unicode] in
theorem settled_of_last {exact : Str → Bool} {s : Str} (last : s.getLast? ≠ some (CodePoint.ofChar '\n')) :
    Settled exact s := by
  intro matched
  simp only [Patterns.beforeFinalNewline,Bool.or_eq_true,Bool.and_eq_true,beq_iff_eq] at matched
  rcases matched with whole | ⟨ends,_⟩
  · exact whole
  · exact absurd ends last

omit [Pydantic] [Unicode] in
theorem settled_of_semanticVersion {s : Str} (version : semanticVersion s = true) : Settled Patterns.semver s :=
  fun _ => (Bool.and_eq_true_iff.mp version).2

/-- Every tool of a published document is a reviewed one, and the models ask nothing more of it. -/
theorem Holds.tools_secondOnly {engine : SchemaEngine} {c : Connector} {d : ConnectorDraft} {p : Publication}
    {now : Timestamp} {version : Str} {row : PublishedVersion} {updates : List ReviewUpdate} {proposals : List Proposal}
    (holds : Holds d updates proposals) (done : preparedVersion engine c d p now = .ok (version,row)) {tools : List Value}
    (listed : Dict.get row.document "tools" = .list tools) (plain : Value.scalar (.dict row.document) = true) :
    ∀ t ∈ tools, Sides.toolShape.secondOnly t := by
  obtain ⟨review,built,read,made,document,_⟩ := preparedVersion_built done
  rw [holds.reviewed] at read
  cases read
  obtain ⟨baseUrl,entries,published,_,analyzed,reviewed,shape,_⟩ := made.exists_tools
  change analyzedOperations d.analysis = .ok entries at analyzed
  rw [holds.analyzed] at analyzed
  cases analyzed
  rw [toolsByKey_of_nodup (holds.keys.symm ▸ holds.distinct)] at reviewed
  have same : tools = published := by
    rw [document,shape] at listed
    exact (Value.list.inj listed).symm
  subst same
  intro t member
  have tPlain : t.scalar = true := by
    rw [document,shape] at plain
    have found : Assoc.get (Str.lit "tools") (connectorDocument (c.reviewed p.connectorKey d
      ⟨proposals.map (fun q => q.review.decided updates)⟩ version now) baseUrl tools) = some (.list tools) := rfl
    exact Sides.scalar_of_item (Sides.scalar_of_get plain found) member
  obtain ⟨r,chosen,one⟩ := exists_left (each_eq_ok.mp reviewed) member
  obtain ⟨q,inside,rfl⟩ := List.mem_map.mp (List.mem_of_mem_filter chosen)
  obtain ⟨after,isAfter,as_⟩ := reviewedTool_eq_ok (holds.plain q inside) (holds.get_stored inside) (by simp [storedTool])
    ⟨storedProvenance q.tool.provenance,rfl,by simp [storedProvenance]⟩ one
  obtain ⟨_,access,isAfter',policy⟩ := reviewedTool_policy one
  cases isAfter.symm.trans isAfter'
  subst isAfter
  exact reviewedTool_secondOnly (holds.converted q inside) as_ policy tPlain

/-- The row a publication prepares, with the base URL of the draft in it. -/
theorem Holds.checked {engine : SchemaEngine} {c : Connector} {d : ConnectorDraft} {p : Publication} {now : Timestamp}
    {version : Str} {row : PublishedVersion} {updates : List ReviewUpdate} {proposals : List Proposal}
    (holds : Holds d updates proposals) (settled : d.Settled) (keyed : resourceKey p.connectorKey = true)
    (admitted : p.Accepts) (done : preparedVersion engine c d p now = .ok (version,row)) :
    ∃ url, d.baseUrl = some url ∧ row.Checked engine url := by
  have tools : ∀ tools, Dict.get row.document "tools" = .list tools → Value.scalar (.dict row.document) = true →
      ∀ t ∈ tools, Sides.toolShape.secondOnly t := fun _ => holds.tools_secondOnly done
  obtain ⟨review,built,_,made,document,_⟩ := preparedVersion_built done
  obtain ⟨url,_,published,based,_,_,shape,_⟩ := made.exists_tools
  have plain : Value.scalar (.dict row.document) = true := document ▸ scalar_of_contentDigest made.digest
  have valid : validateConnectorDefinition engine (.dict row.document) = .ok () := document ▸ made.valid
  rw [document,shape] at tools plain valid
  refine ⟨url,based,?_⟩
  have row_ : row.document = connectorDocument (c.reviewed p.connectorKey d review version now) url published :=
    document.trans shape
  obtain ⟨_,_,seen,versioned,schema,listed,looped⟩ := (validateConnectorDefinition_eq_ok engine).mp valid
  cases (Sides.requireContractVersion_iff.mp versioned).1
  have first := Sides.connectorShape_of_valid schema
  obtain ⟨_,same,_,fields⟩ := Sides.object_first.mp first
  cases same
  simp only [List.forall_mem_cons] at fields
  obtain ⟨_,_,_,_,⟨_,numbered,versionFirst⟩,_,_,⟨_,comes,source⟩,_⟩ := fields
  cases numbered
  cases comes
  obtain ⟨_,same,_,fields⟩ := Sides.object_first.mp source
  cases same
  simp only [List.forall_mem_cons] at fields
  obtain ⟨_,_,_,_,⟨_,sized,least⟩,_⟩ := fields
  cases sized
  have semver : Patterns.semver version = true := by
    have target := (preparedVersion_eq_ok engine done).target
    have settledVersion : Settled Patterns.semver version := by
      rw [target]
      unfold orElse
      split
      next given =>
        have accepted := admitted.2.1
        rw [given] at accepted
        exact settled_of_semanticVersion accepted
      next => exact settled.version
    exact settledVersion (versionFirst.2.1 version rfl)
  have key : Patterns.key p.connectorKey = true := (Bool.and_eq_true_iff.mp keyed).2
  have rest := Sides.connectorShape_secondOnly plain rfl (show Patterns.semver contractVersion = true by decide) rfl key rfl
    semver rfl rfl rfl rfl settled.digest rfl (by exact_mod_cast least.1 _ rfl) (by
      rintro w found
      cases found
      exact tools published rfl plain)
  have apart := ((Sides.validateTools_iff engine schema listed).mp ⟨seen,looped⟩).1
  have shapes := Sides.connectorShape.second_iff (.dict (connectorDocument (c.reviewed p.connectorKey d review version now)
    url published))
  refine ⟨row_ ▸ valid,row_ ▸ rfl,row_ ▸ rfl,?_⟩
  rw [row_]
  simp only [ConnectorDefinition.modelValidate_eq_ok]
  rw [← Sides.connectorDefinition_second engine,← rest]
  constructor
  · intro second
    exact (shapes.mp second.1).2
  · intro second
    refine ⟨TwoSided.second_of_first first second,?_⟩
    exact ⟨Sides.same_second.mpr apart,Sides.schemaOnly_second⟩

end Publication

section Runs

variable [Pydantic] [Unicode] (setting : Setting)

/-- Connectors under keys their route admitted, drafts with settled texts, and versions that the
models read if they read their base URL, which is one of the given. -/
structure Database.Stocked (allowed : Str → Prop) (db : Database) : Prop where
  keys : ∀ key c, db.connector key = some c → resourceKey key = true
  drafts : ∀ key d, storedDraft db key = some d → d.Settled
  versions : ∀ key version row, getVersion db key version = .ok row →
    ∃ url, allowed url ∧ row.Checked setting.engine url

/-- If the call publishes a draft, its base URL is one of the given. -/
def Call.Publishes (allowed : Str → Prop) (db : Database) (call : Call) : Prop :=
  match call.request with
  | .publish p _ => ∀ d url, storedDraft db p.connectorKey = some d → d.baseUrl = some url → allowed url
  | _ => True

/-- Every draft that is published in the run has one of the given base URLs. -/
def RunPublishes (allowed : Str → Prop) : Database → List Call → Prop
  | _,[] => True
  | db,call::rest => call.Publishes allowed db ∧ RunPublishes allowed (call.after setting db) rest

variable {setting} {allowed : Str → Prop}

omit [Pydantic] [Unicode] in
theorem settled_nextVersion {published : List Str} {version : Str} (chosen : nextVersion published = .ok version) :
    Settled Patterns.semver version := by
  refine settled_of_last ?_
  cases published with
  | nil =>
    cases chosen
    decide
  | cons first rest =>
    obtain ⟨_,_,chosen⟩ := bind_eq_ok.mp chosen
    obtain ⟨_,_,chosen⟩ := bind_eq_ok.mp chosen
    obtain ⟨_,_,chosen⟩ := bind_eq_ok.mp chosen
    obtain ⟨_,_,chosen⟩ := bind_eq_ok.mp chosen
    cases chosen
    have last : (Str.lit ".0").getLast? = some (CodePoint.ofChar '0') := by decide
    rw [List.getLast?_append,last,Option.some_or]
    decide

omit [Pydantic] [Unicode] in
theorem settled_chooseVersion {c : Connector} {proposed : Option Str} {version : Str}
    (admitted : proposed.all semanticVersion = true) (chosen : chooseVersion c proposed = .ok version) :
    Settled Patterns.semver version := by
  cases proposed with
  | none => exact settled_nextVersion chosen
  | some text =>
    obtain ⟨_,_,chosen⟩ := bind_eq_ok.mp chosen
    obtain ⟨_,_,chosen⟩ := bind_eq_ok.mp chosen
    cases chosen
    exact settled_of_semanticVersion admitted

omit [Pydantic] [Unicode] in
theorem digest_loadDocument {parsers : Parsers} {limits : SourceLimits} {raw : Bytes} {filename : Str}
    {loaded : LoadedDocument} (load : loadDocument parsers limits raw filename = .ok loaded) :
    loaded.digest = digestOf raw := by
  unfold loadDocument at load
  obtain ⟨text,_,load⟩ := bind_eq_ok.mp load
  obtain ⟨⟨parsed,_⟩,_,load⟩ := bind_eq_ok.mp load
  dsimp only at load
  split at load
  next =>
    obtain ⟨_,_,load⟩ := bind_eq_ok.mp load
    obtain ⟨_,_,load⟩ := bind_eq_ok.mp load
    split at load
    next =>
      cases load
      rfl
    next => cases load
  next => cases load

omit [Pydantic] [Unicode] in
theorem digest_settled (data : Bytes) : Patterns.digest (digestOf data) = true :=
  (Bool.and_eq_true_iff.mp (isDigest_digestOf data)).2

/-- A connector written back: its draft and its versions are as they have to be. -/
theorem Database.Stocked.putConnector {db : Database} (stocked : db.Stocked setting allowed) {key : Str} {c : Connector}
    (keyed : resourceKey key = true) (draft : ∀ d, c.draft = some d → d.Settled)
    (versions : ∀ version row, Assoc.get version c.versions = some row →
      ∃ url, allowed url ∧ row.Checked setting.engine url) : (db.putConnector key c).Stocked setting allowed := by
  refine ⟨?_,?_,?_⟩
  · intro other found stored
    by_cases same : other = key
    · exact same ▸ keyed
    · rw [Database.connector_putConnector_other db c same] at stored
      exact stocked.keys other found stored
  · intro other d stored
    rw [storedDraft_putConnector] at stored
    split at stored
    next => exact draft d stored
    next => exact stocked.drafts other d stored
  · intro other version row found
    obtain ⟨found_,connector,there⟩ := getVersion_eq_ok.mp found
    by_cases same : other = key
    · subst same
      rw [Database.connector_putConnector] at connector
      cases connector
      exact versions version row there
    · rw [Database.connector_putConnector_other db c same] at connector
      exact stocked.versions other version row (getVersion_eq_ok.mpr ⟨found_,connector,there⟩)

theorem Database.Stocked.of_connector {db : Database} (stocked : db.Stocked setting allowed) {key : Str} {c : Connector}
    (connector : db.connector key = some c) : resourceKey key = true ∧ (∀ d, c.draft = some d → d.Settled) ∧
      ∀ version row, Assoc.get version c.versions = some row → ∃ url, allowed url ∧ row.Checked setting.engine url :=
  ⟨stocked.keys key c connector,
    fun d draft => stocked.drafts key d (by rw [storedDraft,connector,Option.bind_some,draft]),
    fun version row there => stocked.versions key version row (getVersion_eq_ok.mpr ⟨c,connector,there⟩)⟩

/-- What one accepted call keeps. -/
theorem Database.Stocked.step {call : Call} {db next : Database} (stocked : db.Stocked setting allowed) (sound : db.Sound)
    (held : ∀ key, ∃ updates, HoldsDraft key db updates) (publishes : call.Publishes allowed db)
    (done : call.run setting db = .ok next) : next.Stocked setting allowed := by
  obtain ⟨request,now⟩ := call
  cases request with
  | register r admitted =>
    obtain ⟨⟨_,d⟩,run,rfl⟩ := map_eq_ok.mp done
    obtain ⟨loaded,analysis,_,_,load,_,_,_,chosen,_,_,digest,_,rfl⟩ := (registerConnector_eq_ok run).exists_analysis
    refine stocked.putConnector admitted.1 ?_ ?_
    · rintro _ ⟨⟩
      exact ⟨settled_chooseVersion admitted.2.2.2.1 chosen,by rw [digest,digest_loadDocument load]; exact digest_settled _⟩
    · intro version row there
      change Assoc.get version (registeredConnector db r analysis).versions = some row at there
      rw [registeredConnector_versions] at there
      cases found : db.connector r.connectorKey with
      | none =>
        rw [found] at there
        cases there
      | some c =>
        rw [found] at there
        exact (stocked.of_connector found).2.2 version row there
  | update u admitted =>
    obtain ⟨⟨_,d⟩,run,rfl⟩ := map_eq_ok.mp done
    obtain ⟨c,found,revised,connector,draft,_,revise,_,_,digest,rfl,rfl⟩ := (updateReview_eq_ok run).exists_draft
    obtain ⟨keyed,drafts,versions⟩ := stocked.of_connector connector
    refine stocked.putConnector keyed ?_ versions
    rintro _ ⟨⟩
    have before := drafts found draft
    refine ⟨?_,digest ▸ before.digest⟩
    rcases (revisedDraft_eq_ok revise).2.2.2.2 with kept | given
    · exact (show Settled Patterns.semver revised.proposedVersion from kept ▸ before.version)
    · have accepted := admitted.2.2.2.1
      rw [given] at accepted
      exact settled_of_semanticVersion accepted
  | publish p admitted =>
    obtain ⟨⟨_,row⟩,run,rfl⟩ := map_eq_ok.mp done
    obtain ⟨c,published,found,version,prepared,connector,draft,prepare,rfl,inserted,rfl⟩ :=
      (publishDraft_eq_ok setting.engine run).exists_draft
    obtain ⟨keyed,drafts,versions⟩ := stocked.of_connector connector
    obtain ⟨grown,_,_⟩ := Connector.insertVersion_eq_ok inserted
    have stored : storedDraft db p.connectorKey = some found := by rw [storedDraft,connector,Option.bind_some,draft]
    obtain ⟨updates,holds⟩ := held p.connectorKey
    obtain ⟨proposals,holds⟩ := holds found stored
    obtain ⟨url,based,checked⟩ := holds.checked (drafts found draft) keyed admitted prepare
    obtain ⟨_,same⟩ := sealed_preparedVersion prepare ((sound.connectors _ c connector).draft found draft)
    refine stocked.putConnector keyed (fun _ none_ => by cases none_) ?_
    intro other row there
    change Assoc.get other published.versions = some row at there
    rw [grown] at there
    rcases List.mem_append.mp (Assoc.mem_of_get there) with old | new
    · exact versions other row (Assoc.get_of_mem c.uniqueVersions old)
    · rw [List.mem_singleton] at new
      cases new
      rw [same]
      exact ⟨url,publishes found url stored based,checked⟩
  | disable connectorKey version reason =>
    obtain ⟨⟨_,row⟩,run,rfl⟩ := map_eq_ok.mp done
    rcases disableVersion_eq_ok run with rfl | ⟨c,found,connector,there,⟨document,_⟩,rfl⟩
    · exact stocked
    · obtain ⟨keyed,drafts,versions⟩ := stocked.of_connector connector
      refine stocked.putConnector keyed drafts ?_
      intro other row' inside
      change Assoc.get other (Assoc.set version row c.versions) = some row' at inside
      by_cases same : other = version
      · rw [same,Assoc.get_set_same] at inside
        cases inside
        obtain ⟨url,is,⟨valid,published,origin,readable⟩⟩ := versions version found there
        rw [← document] at valid published origin readable
        exact ⟨url,is,valid,published,origin,readable⟩
      · rw [Assoc.get_set_other _ _ (Ne.symm same)] at inside
        exact versions other row' inside
  | createDeployment deploymentKey displayName description admitted =>
    obtain ⟨⟨_,d⟩,run,rfl⟩ := map_eq_ok.mp done
    obtain ⟨_,rfl⟩ := createDeployment_eq_ok run
    exact ⟨stocked.keys,stocked.drafts,stocked.versions⟩
  | createSnapshot deploymentKey selections createdBy signingKey =>
    obtain ⟨⟨_,row⟩,run,rfl⟩ := map_eq_ok.mp done
    obtain ⟨_,_,_,_,_,_,_,_,_,_,_,_,_,_,_,rfl⟩ := (createSnapshot_eq_ok run).exists_document
    exact ⟨stocked.keys,stocked.drafts,stocked.versions⟩

/-- Every state of such a run is stocked. -/
theorem stocked_runCalls {calls : List Call} (publishes : RunPublishes setting allowed Database.empty calls) :
    (runCalls setting Database.empty calls).Stocked setting allowed := by
  have run : ∀ (calls : List Call) (db : Database), db.Stocked setting allowed → db.Sound →
      (∀ key, ∃ updates, HoldsDraft key db updates) → RunPublishes setting allowed db calls →
      (runCalls setting db calls).Stocked setting allowed := by
    intro calls
    induction calls with
    | nil => exact fun _ stocked _ _ _ => stocked
    | cons call rest ih =>
      rintro db stocked sound held ⟨publishes,later⟩
      refine ih _ ?_ (after_sound setting call sound).1 ?_ later
      · unfold Call.after
        split
        next done => exact stocked.step sound held publishes done
        next => exact stocked
      · intro key
        obtain ⟨updates,holds⟩ := held key
        exact ⟨_,holds.after setting call⟩
  refine run calls Database.empty ⟨?_,?_,?_⟩ Database.Sound.empty ?_ publishes
  · exact fun _ _ none_ => nomatch none_
  · exact fun _ _ none_ => nomatch none_
  · intro key version row found
    obtain ⟨_,none_,_⟩ := getVersion_eq_ok.mp found
    cases none_
  · exact fun key => ⟨[],fun _ none_ => nomatch none_⟩

theorem runPublishes_any (calls : List Call) (db : Database) : RunPublishes setting (fun _ => True) db calls := by
  induction calls generalizing db with
  | nil => exact trivial
  | cons call rest ih =>
    refine ⟨?_,ih _⟩
    unfold Call.Publishes
    split
    next => exact fun _ _ _ _ => trivial
    next => exact trivial

/-- A version whose base URL the models read can be pinned. -/
theorem pinnable_of_origin {db : Database} (reached : Reachable setting db) {selection : SnapshotSelection}
    {row : PublishedVersion} (stored : getVersion db selection.connectorKey selection.version = .ok row)
    (enabled : row.disabled = false) {url : Str} (origin : originOf row.document = .str url)
    (reviewed : reviewedOrigin url = true) : Pinnable setting.engine db selection row := by
  obtain ⟨calls,rfl⟩ := reached
  obtain ⟨_,_,checked⟩ := (stocked_runCalls (runPublishes_any calls Database.empty)).versions _ _ row stored
  cases checked.origin.symm.trans origin
  exact ⟨stored,enabled,checked.readable_iff.mpr reviewed,checked.valid,checked.published⟩

/-- A snapshot of just one enabled version can be created if its base URL is read, unless the
new identifier is taken. -/
theorem createSnapshot_single {scheme : Ed25519} {db : Database} (sound : db.Sound) (stocked : db.Stocked setting allowed)
    {deploymentKey createdBy : Str} {d : Deployment} {signingKey : Option SigningKey} {now : Timestamp}
    (found : db.deployment deploymentKey = some d)
    (issuable : Issuable scheme setting.engine deploymentKey createdBy d signingKey now)
    {selection : SnapshotSelection} {row : PublishedVersion}
    (stored : getVersion db selection.connectorKey selection.version = .ok row) (enabled : row.disabled = false) :
    ∃ url document snapshotId digest, originOf row.document = .str url ∧ allowed url ∧
      snapshotDocument scheme (snapshotPayload deploymentKey (nextRevision d) now [row.document]) signingKey =
        .ok (document,snapshotId,digest) ∧
      ((∃ next made, createSnapshot scheme setting.engine db deploymentKey [selection] createdBy signingKey now =
        .ok (next,made)) ↔ reviewedOrigin url = true ∧ snapshotId ∉ db.snapshotIds) := by
  obtain ⟨url,is,checked⟩ := stocked.versions _ _ row stored
  have sealed := getVersion_sealed sound stored
  obtain ⟨document,snapshotId,digest,built,_⟩ := exists_snapshotDocument scheme signingKey
    (issuable.canonical (List.forall_mem_singleton.mpr ⟨_,sealed.digest⟩))
  refine ⟨url,document,snapshotId,digest,checked.origin,is,built,?_⟩
  by_cases reviewed : reviewedOrigin url = true
  · have pinnable : Pinnable setting.engine db selection row :=
      ⟨stored,enabled,checked.readable_iff.mpr reviewed,checked.valid,checked.published⟩
    obtain ⟨_,_,_,same,created⟩ := createSnapshot_total sound found issuable (.cons pinnable .nil)
      (List.nodup_singleton _) (by simp)
    cases same.symm.trans built
    rw [created]
    exact (and_iff_right reviewed).symm
  · refine iff_of_false ?_ (fun both => reviewed both.1)
    rintro ⟨next,made,created⟩
    obtain ⟨_,_,_,_,_,_,_,selected,_⟩ := (createSnapshot_eq_ok created).exists_document
    obtain ⟨_,first,_⟩ := loop_cons_eq_ok.mp selected
    obtain ⟨row',c,_,stored',_,valid,_⟩ := selectVersion_eq_ok first
    cases stored.symm.trans stored'
    exact reviewed (checked.readable_iff.mp ⟨c,valid⟩)

end Runs

end ToolLayer.ControlPlane
