import ToolLayer.Contracts.ConnectorSides
import ToolLayer.Contracts.SchemaSubset

/-! When the contract schemas and the contract models agree about a document. -/
namespace ToolLayer
open Python Kit Kit.Result

namespace Sides

variable {v : Value}

def snapshotSignature : Sides :=
  object [("algorithm",exactly "ed25519"),("key_id",matching 2 64 Patterns.keyId),
    ("value",pattern Patterns.signatureValue)]

theorem snapshotSignature_first : Schemas.snapshotSignature v = [] ↔ snapshotSignature.first v := by
  have keyId (w : Value) : Rule.all [Schemas.text 2 64,Rule.pattern Patterns.keyId] w = [] ↔
      (matching 2 64 Patterns.keyId).first w := by
    rw [matching_first]
    simp
  exact rule_object (.cons ⟨rfl,fun _ => exactly_first⟩ (.cons ⟨rfl,keyId⟩ (.cons ⟨rfl,fun _ => pattern_first⟩ .nil)))

theorem snapshotSignature_second : snapshotSignature.second v ↔ ∃ s, SnapshotSignature.read v = some s := by
  constructor
  · intro shape
    obtain ⟨d,rfl,known,each⟩ := object_second.mp shape
    simp only [List.forall_mem_cons] at each
    obtain ⟨⟨_,algorithmFound,algorithm⟩,⟨_,keyFound,keyId⟩,⟨_,valueFound,value⟩,_⟩ := each
    obtain rfl := same_second.mp algorithm
    obtain ⟨k,rfl,bounded,matched⟩ := matching_second.mp keyId
    obtain ⟨s,rfl,taken⟩ := pattern_second.mp value
    rw [Bool.and_eq_true] at taken
    exact ⟨⟨k,s,bounded,matched,taken.1,taken.2⟩,SnapshotSignature.read_iff.mpr
      ⟨d,rfl,known,algorithmFound,keyFound,valueFound⟩⟩
  · rintro ⟨s,read⟩
    obtain ⟨d,rfl,known,algorithm,keyId,value⟩ := SnapshotSignature.read_iff.mp read
    obtain ⟨bounded,matched,scalar,signed⟩ := s.accepted
    refine object_second.mpr ⟨d,rfl,known,?_⟩
    simp only [List.forall_mem_cons]
    exact ⟨⟨_,algorithm,same_second.mpr rfl⟩,⟨_,keyId,matching_second.mpr ⟨_,rfl,bounded,matched⟩⟩,
      ⟨_,value,pattern_second.mpr ⟨_,rfl,by rw [scalar,signed]; rfl⟩⟩,by simp⟩

/-- The snapshot's own version: the schema takes no prerelease, the model nothing overlong. -/
def snapshotVersion : Sides :=
  TwoSided.ofParts (fun v => ∃ s, v = .str s ∧ Patterns.beforeFinalNewline Patterns.semver s = true)
    (fun v => ∀ s, v = .str s → Patterns.beforeFinalNewline Patterns.release s = true)
    (fun v => ∀ s, v = .str s → semanticVersion s = true)

theorem semver_of_release {s : Str} (matched : Patterns.release s = true) : Patterns.semver s = true := by
  simp only [Patterns.release,Option.any_eq_true] at matched
  obtain ⟨parts,found,_⟩ := matched
  rw [Patterns.semver,found]
  rfl

theorem snapshotVersion_first : Rule.all [Rule.type [.string],Rule.pattern Patterns.release] v = [] ↔
    snapshotVersion.first v := by
  simp only [Rule.all_cons_eq_nil,Rule.type_string_eq_nil,snapshotVersion,TwoSided.ofParts]
  constructor
  · rintro ⟨⟨s,rfl⟩,matched,_⟩
    simp only [Rule.pattern,Rule.onText_eq_nil] at matched
    refine ⟨⟨s,rfl,?_⟩,by rintro _ ⟨⟩; exact matched⟩
    simp only [Patterns.beforeFinalNewline,Bool.or_eq_true,Bool.and_eq_true] at matched ⊢
    exact matched.imp semver_of_release (And.imp_right semver_of_release)
  · rintro ⟨⟨s,rfl,_⟩,matched⟩
    exact ⟨⟨s,rfl⟩,by simpa [Rule.pattern] using matched s rfl,rfl⟩

theorem snapshotVersion_second : snapshotVersion.second v ↔ ∃ s, v = .str s ∧ semanticVersion s = true := by
  simp only [snapshotVersion,TwoSided.ofParts]
  constructor
  · rintro ⟨⟨s,rfl,_⟩,taken⟩
    exact ⟨s,rfl,taken s rfl⟩
  · rintro ⟨s,rfl,taken⟩
    refine ⟨⟨s,rfl,Patterns.beforeFinalNewline_of_exact ?_⟩,by rintro _ ⟨⟩; exact taken⟩
    rw [semanticVersion,Bool.and_eq_true] at taken
    exact taken.2

/-- A signature may be left out; the model also takes `null` for it. -/
def signature : Sides :=
  (TwoSided.excusing (fun v => v.entry "signature" = .null)
    (TwoSided.along (fun v => some (v.entry "signature")) snapshotSignature)).and
  (schemaOnly (fun v => ∀ d, v = .dict d → Assoc.get (Str.lit "signature") d ≠ some .null))

theorem signature_first {d : Dict} : (∀ w, Assoc.get (Str.lit "signature") d = some w → Schemas.snapshotSignature w = []) ↔
    signature.first (.dict d) := by
  have refused : Schemas.snapshotSignature .null ≠ [] := by
    rw [ne_eq,snapshotSignature_first]
    rintro ⟨⟨⟨d,same,_⟩,_⟩,_⟩
    cases same
  have sides : signature.first (.dict d) ↔ (Dict.get d "signature" = .null ∨ snapshotSignature.first (Dict.get d "signature")) ∧
      Assoc.get (Str.lit "signature") d ≠ some .null := by
    refine and_congr (or_congr Iff.rfl ?_) (schemaOnly_first.trans (by simp))
    constructor
    · rintro ⟨_,same,first⟩
      cases same
      exact first
    · intro first
      exact ⟨_,rfl,first⟩
  rw [sides,← snapshotSignature_first]
  cases found : Assoc.get (Str.lit "signature") d with
  | none => simp [Dict.get,found]
  | some w =>
    rw [Dict.get_of_found found]
    constructor
    · intro each
      have taken := each w rfl
      exact ⟨.inr taken,by rintro ⟨⟩; exact refused taken⟩
    · rintro ⟨rfl | taken,there⟩ _ ⟨⟩
      · exact absurd rfl there
      · exact taken

theorem signature_second {d : Dict} : signature.second (.dict d) ↔
    ∃ o, Read.nullable SnapshotSignature.read (Dict.get d "signature") = some o := by
  have sides : signature.second (.dict d) ↔ Dict.get d "signature" = .null ∨
      snapshotSignature.second (Dict.get d "signature") := by
    refine (and_iff_left schemaOnly_second).trans (or_congr Iff.rfl ?_)
    constructor
    · rintro ⟨_,same,second⟩
      cases same
      exact second
    · intro second
      exact ⟨_,rfl,second⟩
  rw [sides,snapshotSignature_second]
  simp only [Read.nullable_signature]
  constructor
  · rintro (absent | ⟨s,read⟩)
    · exact ⟨none,.inl ⟨absent,rfl⟩⟩
    · exact ⟨some s,.inr ⟨s,read,rfl⟩⟩
  · rintro ⟨_,⟨absent,_⟩ | ⟨s,read,_⟩⟩
    · exact .inl absent
    · exact .inr ⟨s,read⟩

variable [Pydantic] [Unicode]

def snapshotFields : List (Str × Sides) :=
  [("contract_version",snapshotVersion),("snapshot_id",pattern Patterns.snapshotId),("deployment_key",key),
    ("revision",positive),("created_at",plain),("snapshot_digest",pattern Patterns.digest),
    ("connectors",(list connectorShape).and (schemaOnly (fun v => v.items.length ≤ 64)))]

/-- One version per connector, and only published ones. -/
def ConnectorsConsistent (v : Value) : Prop :=
  ((v.entry "connectors").items.map (fun c => c.entry "connector_key")).Nodup ∧
  ∀ c ∈ (v.entry "connectors").items, c.entry "lifecycle_state" = .str "published"

def snapshotShape : Sides :=
  ((closed DeploymentSnapshot.fields).and (members snapshotFields)).and signature

def deploymentSnapshot (engine : SchemaEngine) : Sides :=
  ((snapshotShape.and (TwoSided.same ConnectorsConsistent)).and
    (TwoSided.each (fun v => (v.entry "connectors").items) (connectorRules engine))).and (schemaOnly ContractSupported)

variable (engine : SchemaEngine)

theorem snapshotShape_first (formats : ∀ s, engine.dateTime s = true) :
    Schemas.deploymentSnapshot engine v = [] ↔ snapshotShape.first v := by
  have connectors (w : Value) : Rule.all [Rule.type [.array],Rule.minItems 0,Rule.maxItems 64,
      Rule.items (Schemas.connectorDefinition engine)] w = [] ↔
      ((list connectorShape).and (schemaOnly (fun v => v.items.length ≤ 64))).first w := by
    simp only [Rule.all_cons_eq_nil,Rule.type_array_eq_nil,TwoSided.and,list_first,schemaOnly_first]
    constructor
    · rintro ⟨⟨values,rfl⟩,_,short,each,_⟩
      exact ⟨⟨values,rfl,fun w member => (connectorShape_first engine formats).mp (Rule.items_eq_nil.mp each w member)⟩,
        by simpa [Rule.maxItems] using short⟩
    · rintro ⟨⟨values,rfl,each⟩,short⟩
      exact ⟨⟨values,rfl⟩,by simp [Rule.minItems],by simpa [Rule.maxItems] using short,
        Rule.items_eq_nil.mpr (fun w member => (connectorShape_first engine formats).mpr (each w member)),rfl⟩
  cases v with
  | dict d =>
    rw [deploymentSnapshot_eq_nil]
    have names : DeploymentSnapshot.fields.Perm ((Schemas.snapshotMembers engine).map (·.1)) :=
      (((((((List.Perm.swap _ _ []).cons _).cons _).cons _).cons _).cons _).cons _)
    have named : (closed DeploymentSnapshot.fields).first (.dict d) ↔
        ∀ m ∈ d, m.1 ∈ (Schemas.snapshotMembers engine).map (·.1) := by
      simp only [← names.mem_iff]
      refine same_first.trans ⟨?_,fun known => ⟨d,rfl,known⟩⟩
      rintro ⟨_,same,known⟩
      cases same
      exact known
    have fields : (members snapshotFields).first (.dict d) ↔ ∀ p ∈ Schemas.snapshotMembers engine,
        p.1 ≠ Str.lit "signature" → ∃ w, Assoc.get p.1 d = some w ∧ p.2 w = [] := by
      have others : Str.lit "contract_version" ≠ Str.lit "signature" ∧ Str.lit "snapshot_id" ≠ Str.lit "signature" ∧
          Str.lit "deployment_key" ≠ Str.lit "signature" ∧ Str.lit "revision" ≠ Str.lit "signature" ∧
          Str.lit "created_at" ≠ Str.lit "signature" ∧ Str.lit "snapshot_digest" ≠ Str.lit "signature" ∧
          Str.lit "connectors" ≠ Str.lit "signature" := by decide
      rw [members_first]
      simp only [snapshotFields,Schemas.snapshotMembers,List.forall_mem_cons,← snapshotVersion_first,← pattern_first,
        ← key_first,← positive_first,← plain_first formats,← connectors]
      simp [others,Schemas.digest]
    rw [snapshotShape]
    refine Iff.trans ?_ (and_congr (and_congr named.symm fields.symm) signature_first)
    tauto
  | _ =>
    refine iff_of_false ?_ ?_
    · simp [Schemas.deploymentSnapshot,Rule.type,Value.isType]
    · rintro ⟨⟨named,_⟩,_⟩
      obtain ⟨_,same,_⟩ := same_first.mp named
      cases same

omit [Pydantic] in
/-- One round of the loop over the connectors, on a connector its schema accepts. -/
theorem validateConnector_eq_ok {entry : Value × Nat} (valid : Schemas.connectorDefinition engine entry.1 = [])
    (seen next : List Value) : validateConnector engine seen entry = .ok next ↔
      entry.1.entry "connector_key" ∉ seen ∧
      (entry.1.entry "lifecycle_state" = .str "published" ∧ validateConnectorDefinition engine entry.1 = .ok ()) ∧
      next = seen ++ [entry.1.entry "connector_key"] := by
  obtain ⟨d,isDict,_,each⟩ := Rule.object_eq_nil.mp valid
  obtain ⟨_,keyFound,keyed⟩ := each (Str.lit "connector_key",Schemas.key) (by simp)
  obtain ⟨state,stateFound,_⟩ := each (Str.lit "lifecycle_state",Schemas.texts ["draft","published","disabled"])
    (by simp)
  obtain ⟨s,rfl⟩ : ∃ s, _ = Value.str s := Rule.type_string_eq_nil.mp (Rule.all_cons_eq_nil.mp keyed).1
  have key : entry.1.entry "connector_key" = .str s := by
    rw [isDict,Value.entry_dict,Dict.get_of_found keyFound]
  have stated : entry.1.entry "lifecycle_state" = state := by
    rw [isDict,Value.entry_dict,Dict.get_of_found stateFound]
  rw [key,stated,← isIn_text,← Value.pyEq_str]
  simp only [validateConnector]
  rw [isDict]
  simp only [asDict,ok_bind,item_eq_ok.mpr keyFound,item_eq_ok.mpr stateFound,refuse_bind_eq_ok,Bool.not_eq_false']
  refine and_congr_right (fun _ => ?_)
  rw [and_assoc]
  refine and_congr_right (fun _ => ?_)
  constructor
  · intro done
    obtain ⟨_,passed,done⟩ := bind_eq_ok.mp done
    cases done
    exact ⟨passed,rfl⟩
  · rintro ⟨passed,rfl⟩
    rw [passed,ok_bind]
    rfl

omit [Unicode] [Pydantic] in
theorem exists_connectors {d : Dict} (valid : Schemas.deploymentSnapshot engine (.dict d) = []) :
    ∃ items, Assoc.get (Str.lit "connectors") d = some (.list items) ∧
      ∀ c ∈ items, Schemas.connectorDefinition engine c = [] := by
  obtain ⟨_,each,_⟩ := (deploymentSnapshot_eq_nil engine).mp valid
  have other : Str.lit "connectors" ≠ Str.lit "signature" := by decide
  obtain ⟨_,found,accepted⟩ := each (Str.lit "connectors",Rule.all [Rule.type [.array],Rule.minItems 0,
    Rule.maxItems 64,Rule.items (Schemas.connectorDefinition engine)]) (by simp [Schemas.snapshotMembers]) other
  simp only [Rule.all_cons_eq_nil,Rule.type_array_eq_nil] at accepted
  obtain ⟨⟨items,rfl⟩,_,_,each,_⟩ := accepted
  exact ⟨items,found,Rule.items_eq_nil.mp each⟩

omit [Pydantic] in
theorem validateConnectors_iff {d : Dict} {items : List Value}
    (valid : Schemas.deploymentSnapshot engine (.dict d) = [])
    (listed : Assoc.get (Str.lit "connectors") d = some (.list items)) :
    (∃ seen, loop (validateConnector engine) [] items.zipIdx = .ok seen) ↔
      ConnectorsConsistent (.dict d) ∧ ∀ c ∈ items, validateConnectorDefinition engine c = .ok () := by
  obtain ⟨_,found,accepted⟩ := exists_connectors engine valid
  cases listed.symm.trans found
  have stepped := loop_distinct (fun e (member : e ∈ items.zipIdx) =>
    validateConnector_eq_ok engine (accepted e.1 (List.fst_mem_of_mem_zipIdx member))) []
  have keys : items.zipIdx.map (fun e : Value × Nat => e.1.entry "connector_key") =
      items.map (fun c => c.entry "connector_key") := by
    have shifted : items.zipIdx.map ((fun t : Value => t.entry "connector_key") ∘ Prod.fst) =
        items.map (fun t => t.entry "connector_key") := by
      rw [← List.map_map,List.zipIdx_map_fst]
    exact shifted
  rw [stepped,keys,ConnectorsConsistent,Value.entry_dict,Dict.get_of_found listed,Value.items_list,and_assoc]
  refine and_congr_right (fun _ => ?_)
  constructor
  · rintro ⟨_,each⟩
    have passed : ∀ c ∈ items, c.entry "lifecycle_state" = .str "published" ∧
        validateConnectorDefinition engine c = .ok () := by
      intro c member
      obtain ⟨i,bound,rfl⟩ := List.mem_iff_getElem.mp member
      exact each (items[i],i) (List.mk_mem_zipIdx_iff_getElem?.mpr (List.getElem?_eq_getElem bound))
    exact ⟨fun c member => (passed c member).1,fun c member => (passed c member).2⟩
  · rintro ⟨published,valid⟩
    refine ⟨by simp,fun e member => ?_⟩
    have inside := List.fst_mem_of_mem_zipIdx member
    exact ⟨published e.1 inside,valid e.1 inside⟩

theorem validateDeploymentSnapshot_iff (formats : ∀ s, engine.dateTime s = true) :
    validateDeploymentSnapshot engine v = .ok () ↔ (deploymentSnapshot engine).first v := by
  have sides : (deploymentSnapshot engine).first v ↔ ((Schemas.deploymentSnapshot engine v = [] ∧ ConnectorsConsistent v) ∧
      ∀ c ∈ (v.entry "connectors").items, (connectorRules engine).first c) ∧ ContractSupported v :=
    and_congr (and_congr_left' (and_congr (snapshotShape_first engine formats).symm same_first)) schemaOnly_first
  have whole {d : Dict} {items : List Value} (valid : Schemas.deploymentSnapshot engine (.dict d) = [])
      (listed : Assoc.get (Str.lit "connectors") d = some (.list items)) :
      (∀ c ∈ items, validateConnectorDefinition engine c = .ok ()) ↔ ∀ c ∈ items, (connectorRules engine).first c := by
    obtain ⟨_,found,accepted⟩ := exists_connectors engine valid
    cases listed.symm.trans found
    refine forall₂_congr (fun c member => ?_)
    rw [validateConnectorDefinition_iff engine formats]
    exact and_iff_right ((connectorShape_first engine formats).mp (accepted c member))
  rw [validateDeploymentSnapshot_eq_ok,sides]
  constructor
  · rintro ⟨d,items,seen,versioned,valid,listed,looped⟩
    obtain ⟨rfl,supported⟩ := requireContractVersion_iff.mp versioned
    obtain ⟨consistent,each⟩ := (validateConnectors_iff engine valid listed).mp ⟨seen,looped⟩
    refine ⟨⟨⟨valid,consistent⟩,?_⟩,supported⟩
    rw [Value.entry_dict,Dict.get_of_found listed]
    exact (whole valid listed).mp each
  · rintro ⟨⟨⟨valid,consistent⟩,rules⟩,supported⟩
    obtain ⟨d,rfl⟩ := Rule.type_object_eq_nil.mp (Rule.all_cons_eq_nil.mp valid).1
    obtain ⟨items,listed,_⟩ := exists_connectors engine valid
    rw [Value.entry_dict,Dict.get_of_found listed] at rules
    obtain ⟨seen,looped⟩ := (validateConnectors_iff engine valid listed).mpr
      ⟨consistent,(whole valid listed).mpr rules⟩
    exact ⟨d,items,seen,requireContractVersion_iff.mpr ⟨rfl,supported⟩,valid,listed,looped⟩

/-- What the model made of each connector says what it is called and where it stands. -/
theorem connectors_of_read {items : List Value} {cs : List ConnectorDefinition}
    (each : List.Forall₂ (fun w c => ConnectorDefinition.read w = some c) items cs) :
    items.map (fun c => c.entry "connector_key") = (cs.map ConnectorDefinition.connectorKey).map .str ∧
      ((∀ c ∈ items, c.entry "lifecycle_state" = .str "published") ↔ ∀ c ∈ cs, c.lifecycleState = .published) := by
  have published {l : LifecycleState} : Value.str l.text = .str "published" ↔ l = .published := by
    rw [Value.str.injEq]
    cases l <;> decide
  induction each with
  | nil => simp
  | cons first _ ih =>
    obtain ⟨d,_,_,_,_,rfl,_,_,key,_,_,_,state,_⟩ := ConnectorDefinition.read_iff.mp first
    refine ⟨by simp only [List.map_cons,ih.1,Value.entry_dict,Dict.get_of_found key],?_⟩
    rw [List.forall_mem_cons,List.forall_mem_cons,ih.2,Value.entry_dict,Dict.get_of_found state,published]

theorem connectorsConsistent_iff {d : Dict} {items : List Value} {cs : List ConnectorDefinition}
    (each : List.Forall₂ (fun w c => ConnectorDefinition.read w = some c) items cs)
    (listed : Assoc.get (Str.lit "connectors") d = some (.list items)) : ConnectorsConsistent (.dict d) ↔
      distinctNames (cs.map ConnectorDefinition.connectorKey) ∧ ∀ c ∈ cs, c.lifecycleState = .published := by
  obtain ⟨keys,states⟩ := connectors_of_read each
  rw [ConnectorsConsistent,Value.entry_dict,Dict.get_of_found listed,Value.items_list,keys,states,nodup_texts]
  rfl

theorem snapshot_sides : (deploymentSnapshot engine).second v ↔ (snapshotShape.second v ∧ ConnectorsConsistent v) ∧
    ∀ c ∈ (v.entry "connectors").items, (connectorRules engine).second c :=
  (and_iff_left schemaOnly_second).trans (and_congr_left' (and_congr_right (fun _ => same_second)))

theorem connectors_second {items : List Value} :
    (∀ c ∈ items, connectorShape.second c ∧ (connectorRules engine).second c) ↔
      ∃ cs, List.Forall₂ (fun w c => ConnectorDefinition.read w = some c) items cs := by
  rw [exists_forall₂]
  exact forall₂_congr (fun c _ => connectorDefinition_second engine)

theorem exists_read_snapshot (second : (deploymentSnapshot engine).second v) :
    ∃ s, DeploymentSnapshot.read v = some s := by
  obtain ⟨⟨⟨⟨named,fields⟩,signed⟩,consistent⟩,rules⟩ := (snapshot_sides engine).mp second
  obtain ⟨d,rfl,known⟩ := same_second.mp named
  have each := members_second.mp fields
  simp only [snapshotFields,List.forall_mem_cons] at each
  obtain ⟨⟨_,versionFound,version⟩,⟨_,idFound,snapshotId⟩,⟨_,keyFound,deploymentKey⟩,⟨_,revisionFound,revision⟩,
    ⟨_,createdFound,created⟩,⟨_,digestFound,digest⟩,⟨_,listed,connectors⟩,_⟩ := each
  obtain ⟨n,rfl,versionTaken⟩ := snapshotVersion_second.mp version
  obtain ⟨i,rfl,idTaken⟩ := pattern_second.mp snapshotId
  obtain ⟨k,rfl,keyTaken⟩ := key_second.mp deploymentKey
  obtain ⟨r,lax,bound⟩ := positive_second.mp revision
  obtain ⟨c,rfl,createdTaken⟩ := plain_second.mp created
  obtain ⟨h,rfl,digestTaken⟩ := pattern_second.mp digest
  obtain ⟨items,rfl,shapes⟩ := list_second.mp connectors.1
  obtain ⟨o,signature⟩ := signature_second.mp signed
  rw [Value.entry_dict,Dict.get_of_found listed] at rules
  obtain ⟨cs,connectorsRead⟩ := (connectors_second engine).mp (fun c member => ⟨shapes c member,rules c member⟩)
  obtain ⟨apart,published⟩ := (connectorsConsistent_iff connectorsRead listed).mp consistent
  exact ⟨⟨n,i,k,r,c,h,cs,o,versionTaken,idTaken,keyTaken,bound,createdTaken,digestTaken,apart,published⟩,
    DeploymentSnapshot.read_iff.mpr ⟨d,_,items,rfl,known,versionFound,idFound,keyFound,revisionFound,lax,
      createdFound,digestFound,listed,connectorsRead,Read.nullable_signature.mp signature⟩⟩

theorem snapshot_second_of_read {s : DeploymentSnapshot} (read : DeploymentSnapshot.read v = some s) :
    (deploymentSnapshot engine).second v := by
  obtain ⟨d,_,items,rfl,known,version,snapshotId,deploymentKey,revisionFound,lax,created,digest,listed,connectorsRead,
    signed⟩ := DeploymentSnapshot.read_iff.mp read
  obtain ⟨versionTaken,idTaken,keyTaken,bound,createdTaken,digestTaken,apart,published⟩ := s.accepted
  have each := (connectors_second engine).mpr ⟨_,connectorsRead⟩
  have consistent := (connectorsConsistent_iff connectorsRead listed).mpr ⟨apart,published⟩
  have fields : (members snapshotFields).second (.dict d) := by
    rw [members_second]
    simp only [snapshotFields,List.forall_mem_cons]
    exact ⟨⟨_,version,snapshotVersion_second.mpr ⟨_,rfl,versionTaken⟩⟩,
      ⟨_,snapshotId,pattern_second.mpr ⟨_,rfl,idTaken⟩⟩,⟨_,deploymentKey,key_second.mpr ⟨_,rfl,keyTaken⟩⟩,
      ⟨_,revisionFound,positive_second.mpr ⟨_,lax,bound⟩⟩,⟨_,created,plain_second.mpr ⟨_,rfl,createdTaken⟩⟩,
      ⟨_,digest,pattern_second.mpr ⟨_,rfl,digestTaken⟩⟩,
      ⟨_,listed,list_second.mpr ⟨items,rfl,fun c member => (each c member).1⟩,schemaOnly_second⟩,by simp⟩
  have signature : signature.second (.dict d) := signature_second.mpr ⟨_,Read.nullable_signature.mpr signed⟩
  have rules : ∀ c ∈ ((Value.dict d).entry "connectors").items, (connectorRules engine).second c := by
    rw [Value.entry_dict,Dict.get_of_found listed]
    exact fun c member => (each c member).2
  exact (snapshot_sides engine).mpr ⟨⟨⟨⟨same_second.mpr ⟨d,rfl,known⟩,fields⟩,signature⟩,consistent⟩,rules⟩

theorem deploymentSnapshot_second : (deploymentSnapshot engine).second v ↔ ∃ s, DeploymentSnapshot.read v = some s :=
  ⟨exists_read_snapshot engine,fun ⟨_,read⟩ => snapshot_second_of_read engine read⟩

end Sides

/-- The two implementations of a contract agree on a document unless it meets all that both
ask for and just one of what only the schema asks and what only the model asks. -/
theorem contracts_agree_iff [Pydantic] [Unicode] {engine : SchemaEngine} (formats : ∀ s, engine.dateTime s = true) (v : Value) :
    ((validateToolDefinition engine v = .ok () ↔ ∃ t, ToolDefinition.modelValidate v = .ok t) ↔
      ((Sides.toolDefinition engine).shared v →
        ((Sides.toolDefinition engine).firstOnly v ↔ (Sides.toolDefinition engine).secondOnly v))) ∧
    ((validateConnectorDefinition engine v = .ok () ↔ ∃ c, ConnectorDefinition.modelValidate v = .ok c) ↔
      ((Sides.connectorDefinition engine).shared v →
        ((Sides.connectorDefinition engine).firstOnly v ↔ (Sides.connectorDefinition engine).secondOnly v))) ∧
    ((validateDeploymentSnapshot engine v = .ok () ↔ ∃ s, DeploymentSnapshot.modelValidate v = .ok s) ↔
      ((Sides.deploymentSnapshot engine).shared v →
        ((Sides.deploymentSnapshot engine).firstOnly v ↔ (Sides.deploymentSnapshot engine).secondOnly v))) := by
  simp only [ToolDefinition.modelValidate_eq_ok,ConnectorDefinition.modelValidate_eq_ok,
    DeploymentSnapshot.modelValidate_eq_ok]
  refine ⟨?_,?_,?_⟩
  · rw [Sides.validateToolDefinition_eq_ok,← Sides.toolDefinition_second engine]
    exact TwoSided.agree_iff _ v
  · rw [Sides.validateConnectorDefinition_iff engine formats,← Sides.connectorDefinition_second engine]
    exact TwoSided.agree_iff _ v
  · rw [Sides.validateDeploymentSnapshot_iff engine formats,← Sides.deploymentSnapshot_second engine]
    exact TwoSided.agree_iff _ v

section Desk

local instance agreementTables : Unicode := Unicode.asciiOnly

local instance agreementModels : Pydantic := Pydantic.exact

/-- A tool without arguments, tagged as given. -/
def taggedTool (tags : List Value) : Value :=
  .dict [("tool_name",.str "ping"),("display_name",.str "Ping"),("description",.str "Ping."),
    ("input_schema",.dict [("$schema",.str ToolDefinition.dialect),("type",.str "object"),("properties",.dict []),
      ("required",.list []),("additionalProperties",.bool false)]),
    ("operation",.dict [("protocol",.str "http"),("method",.str "GET"),("path_template",.str "/ping"),
      ("bindings",.list []),("request_body_media_type",.null)]),
    ("policy",.dict [("effect_class",.str "read"),("requires_confirmation",.bool false),
      ("access",.dict [("access_mode",.str "public"),("allowed_roles",.list [])])]),
    ("provenance",.dict [("source_operation_id",.null),("source_path",.str "/ping"),("source_method",.str "get"),
      ("tags",.list tags),("deprecated",.bool false),("description_origin",.str "source")])]

/-- The schema refuses an empty tag, the model takes it. -/
theorem empty_tag_divides : ¬ ∀ v : Value,
    (validateToolDefinition SchemaSubset.engine v = .ok () ↔ ∃ t, ToolDefinition.modelValidate v = .ok t) ∧
    (validateConnectorDefinition SchemaSubset.engine v = .ok () ↔ ∃ c, ConnectorDefinition.modelValidate v = .ok c) ∧
    (validateDeploymentSnapshot SchemaSubset.engine v = .ok () ↔ ∃ s, DeploymentSnapshot.modelValidate v = .ok s) := by
  intro agree
  have taken : okWith (fun _ => true) (ToolDefinition.modelValidate (taggedTool [.str ""])) = true := by decide +kernel
  have refused : okWith (fun _ => true) (validateToolDefinition SchemaSubset.engine (taggedTool [.str ""])) = false := by
    decide +kernel
  obtain ⟨t,read,_⟩ := exists_of_okWith taken
  rw [(agree (taggedTool [.str ""])).1.mpr ⟨t,read⟩] at refused
  cases refused

/-- The tool without tags is one both accept. -/
theorem contracts_agree_plain :
    (∀ s, SchemaSubset.engine.dateTime s = true) ∧
    ((validateToolDefinition SchemaSubset.engine (taggedTool []) = .ok () ↔
        ∃ t, ToolDefinition.modelValidate (taggedTool []) = .ok t) ↔
      ((Sides.toolDefinition SchemaSubset.engine).shared (taggedTool []) →
        ((Sides.toolDefinition SchemaSubset.engine).firstOnly (taggedTool []) ↔
          (Sides.toolDefinition SchemaSubset.engine).secondOnly (taggedTool [])))) :=
  ⟨fun _ => rfl,(contracts_agree_iff (fun _ => rfl) (taggedTool [])).1⟩

end Desk

end ToolLayer
