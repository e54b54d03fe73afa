import ToolLayer.ControlPlane.Effects

/-! Documents the columns give back as they were written: those that have a digest. -/
namespace ToolLayer.ControlPlane
open Python Kit Kit.Result OpenApi

section Reading

theorem distinct_asMapping {v : Value} {d : Dict} (read : asMapping v = .ok d) (distinct : v.distinct = true) :
    Value.distinct (.dict d) = true := by
  unfold asMapping at read
  split at read
  next => exact Except.ok.inj read ▸ distinct
  next => cases read

theorem asDict_eq_ok {v : Value} {d : Dict} : asDict v = .ok d ↔ v = .dict d := by
  unfold asDict
  split <;> simp_all

theorem distinct_tupleOf {v : Value} {items : List Value} (read : tupleOf v = .ok items)
    (distinct : v.distinct = true) : ∀ item ∈ items, item.distinct = true := by
  unfold tupleOf at read
  split at read
  next => exact Except.ok.inj read ▸ Value.distinct_list.mp distinct
  next s =>
    cases read
    exact List.forall_mem_map.mpr (fun _ _ => rfl)
  next members =>
    cases read
    exact List.forall_mem_map.mpr (fun _ _ => rfl)
  next => cases read

theorem distinct_getOr {d : Dict} (key : Str) {default : Value} (distinct : Value.distinct (.dict d) = true)
    (plain : default.distinct = true) : (getOr d key default).distinct = true := by
  unfold getOr
  cases found : Assoc.get key d with
  | none => exact plain
  | some value => exact Value.distinct_of_get distinct found

theorem distinct_item {d : Dict} {key : Str} {value : Value} (read : item d key = .ok value)
    (distinct : Value.distinct (.dict d) = true) : value.distinct = true :=
  Value.distinct_of_get distinct (item_eq_ok.mp read)

/-- The values of a review entry that are not texts by construction. -/
structure OperationReview.Distinct (r : OperationReview) : Prop where
  descriptionOrigin : r.descriptionOrigin.distinct = true
  effectClass : r.effectClass.distinct = true

theorem distinct_texts (texts : List Str) : Value.distinct (.list (texts.map .str)) = true := by
  rw [Value.distinct_list,List.forall_mem_map]
  exact fun _ _ => rfl

variable [Unicode]

theorem distinct_operationReview {entry : Value} {r : OperationReview} (read : OperationReview.fromDict entry = .ok r)
    (distinct : entry.distinct = true) : r.Distinct := by
  unfold OperationReview.fromDict at read
  obtain ⟨payload,mapping,read⟩ := bind_eq_ok.mp read
  obtain ⟨_,_,read⟩ := bind_eq_ok.mp read
  obtain ⟨_,_,read⟩ := bind_eq_ok.mp read
  obtain ⟨_,_,read⟩ := bind_eq_ok.mp read
  obtain ⟨_,_,read⟩ := bind_eq_ok.mp read
  cases read
  have members : Value.distinct (.dict payload) = true := asDict_eq_ok.mp mapping ▸ distinct
  exact ⟨distinct_getOr _ members rfl,distinct_getOr _ members rfl⟩

theorem distinct_reviewState {payload : Dict} {state : ReviewState} (read : ReviewState.fromDict payload = .ok state)
    (distinct : Value.distinct (.dict payload) = true) : ∀ r ∈ state.operations, r.Distinct := by
  unfold ReviewState.fromDict at read
  obtain ⟨raw,listed,read⟩ := bind_eq_ok.mp read
  obtain ⟨operations,each_,read⟩ := bind_eq_ok.mp read
  cases read
  have entries := distinct_tupleOf listed (distinct_getOr _ distinct rfl)
  intro r member
  obtain ⟨entry,inside,read⟩ := exists_left (each_eq_ok.mp each_) member
  exact distinct_operationReview read (entries entry inside)

theorem distinct_analyzedOperations {analysis : Dict} {entries : List (Str × Value)}
    (read : analyzedOperations analysis = .ok entries) (distinct : Value.distinct (.dict analysis) = true) :
    ∀ entry ∈ entries, entry.2.distinct = true := by
  unfold analyzedOperations at read
  obtain ⟨operations,listed,read⟩ := bind_eq_ok.mp read
  obtain ⟨found,each_,read⟩ := bind_eq_ok.mp read
  cases read
  have values := distinct_tupleOf listed (distinct_getOr _ distinct rfl)
  intro entry member
  obtain ⟨some_,inside,rfl⟩ := List.mem_filterMap.mp member
  obtain ⟨operation,there,read⟩ := exists_left (each_eq_ok.mp each_) inside
  obtain ⟨members,mapping,read⟩ := bind_eq_ok.mp read
  have tool := Value.distinct_get "tool" (distinct_asMapping mapping (values operation there))
  split at read
  next => cases read
  next =>
    obtain ⟨_,_,read⟩ := bind_eq_ok.mp read
    obtain ⟨_,_,read⟩ := bind_eq_ok.mp read
    cases read
    exact tool

omit [Unicode] in
theorem distinct_reviewedPolicy {entry : OperationReview} (access : ToolAccessPolicy) (distinct : entry.Distinct) :
    (reviewedPolicy entry access).distinct = true := by
  have roles := distinct_texts access.allowedRoles
  simp only [reviewedPolicy,ToolAccessPolicy.dump,Value.distinct_dict,Assoc.keys_cons,Assoc.keys_nil,List.forall_mem_cons,
    Value.distinct_bool,Value.distinct_str,distinct.effectClass,roles,true_and]
  refine ⟨by decide,⟨by decide,?_⟩,?_⟩
  all_goals simp

omit [Unicode] in
theorem distinct_reviewedTool {analyzed : List (Str × Value)} {entry : OperationReview} {tool : Value}
    (built : reviewedTool analyzed entry = .ok tool) (distinct : entry.Distinct)
    (tools : ∀ found ∈ analyzed, found.2.distinct = true) : tool.distinct = true := by
  unfold reviewedTool at built
  split at built
  next => cases built
  next stored found =>
    have before := tools _ (Assoc.mem_of_get found)
    obtain ⟨members,mapping,built⟩ := bind_eq_ok.mp built
    obtain ⟨access,_,built⟩ := bind_eq_ok.mp built
    obtain ⟨provenance,read,built⟩ := bind_eq_ok.mp built
    obtain ⟨origin,object,built⟩ := bind_eq_ok.mp built
    cases built
    rw [asDict_eq_ok.mp mapping] at before
    have source := distinct_item read before
    rw [asDict_eq_ok.mp object] at source
    exact Value.distinct_set _ (Value.distinct_set _ (Value.distinct_set _ before rfl)
      (distinct_reviewedPolicy access distinct)) (Value.distinct_set _ source distinct.descriptionOrigin)

end Reading

section Documents

variable [Unicode] {engine : SchemaEngine}

/-- `{key: tool for …}` over the analyzed operations. -/
def toolsByKey (entries : List (Str × Value)) : List (Str × Value) :=
  entries.foldl (fun found entry => Assoc.set entry.1 entry.2 found) []

/-- What a publication built, and from what. -/
structure Built (engine : SchemaEngine) (d : Draft) (built : BuiltConnector) : Prop where
  exists_tools : ∃ (baseUrl : Str) (entries : List (Str × Value)) (tools : List Value), d.baseUrl = some baseUrl ∧
    analyzedOperations d.analysis = .ok entries ∧ each (reviewedTool (toolsByKey entries)) d.review.included = .ok tools ∧
    built.document = connectorDocument d baseUrl tools ∧ built.toolCount = tools.length
  ready : reviewReadiness d.analysis d.review d.baseUrl = .ok []
  valid : validateConnectorDefinition engine (.dict built.document) = .ok ()
  digest : contentDigest built.document [] = .ok built.digest

theorem buildConnectorDocument_eq_ok {d : Draft} {built : BuiltConnector}
    (done : buildConnectorDocument engine d = .ok built) : Built engine d built := by
  unfold buildConnectorDocument at done
  obtain ⟨issues,ready,done⟩ := bind_eq_ok.mp done
  obtain ⟨none_,done⟩ := refuse_bind_eq_ok.mp done
  have empty : issues = [] := by simpa using none_
  split at done
  next => cases done
  next baseUrl url =>
    obtain ⟨entries,read,done⟩ := bind_eq_ok.mp done
    obtain ⟨tools,reviewed,done⟩ := bind_eq_ok.mp done
    obtain ⟨_,done⟩ := refuse_bind_eq_ok.mp done
    obtain ⟨names,_,done⟩ := bind_eq_ok.mp done
    obtain ⟨_,done⟩ := refuse_bind_eq_ok.mp done
    obtain ⟨_,valid,done⟩ := bind_eq_ok.mp done
    obtain ⟨digest,taken,done⟩ := bind_eq_ok.mp done
    cases done
    exact ⟨⟨baseUrl,entries,tools,url,read,reviewed,rfl,rfl⟩,empty ▸ ready,valid,taken⟩

omit [Unicode] in
theorem distinct_connectorDocument {d : Draft} {baseUrl : Str} {tools : List Value}
    (each_ : ∀ tool ∈ tools, tool.distinct = true) : Value.distinct (.dict (connectorDocument d baseUrl tools)) = true := by
  have listed := Value.distinct_list.mpr each_
  have profile : (textOrNull d.authProfileRef).distinct = true := by cases d.authProfileRef <;> rfl
  have labels : Value.distinct (.list []) = true := rfl
  simp only [connectorDocument,Value.distinct_dict,Assoc.keys_cons,Assoc.keys_nil,List.forall_mem_cons,Value.distinct_str,
    Value.distinct_int,listed,profile,labels,true_and]
  refine ⟨by decide,⟨by decide,?_⟩,⟨by decide,?_⟩,⟨by decide,?_⟩,?_⟩
  all_goals simp

theorem distinct_built {d : Draft} {built : BuiltConnector} (made : Built engine d built)
    (analysis : Value.distinct (.dict d.analysis) = true) (review : ∀ r ∈ d.review.operations, r.Distinct) :
    Value.distinct (.dict built.document) = true := by
  obtain ⟨baseUrl,entries,tools,_,read,reviewed,document,_⟩ := made.exists_tools
  have values := distinct_analyzedOperations read analysis
  have keyed : ∀ found ∈ toolsByKey entries, found.2.distinct = true := by
    have step : ∀ (entries found : List (Str × Value)), (∀ entry ∈ entries, entry.2.distinct = true) →
        (∀ entry ∈ found, entry.2.distinct = true) →
        ∀ entry ∈ entries.foldl (fun found entry => Assoc.set entry.1 entry.2 found) found, entry.2.distinct = true := by
      intro entries
      induction entries with
      | nil => exact fun _ _ before => before
      | cons entry rest ih =>
        intro found new before
        rw [List.forall_mem_cons] at new
        refine ih _ new.2 (fun other member => ?_)
        rcases Assoc.mem_set member with same | old
        · exact same ▸ new.1
        · exact before other old
    exact step entries [] values (by simp)
  rw [document]
  refine distinct_connectorDocument (fun tool member => ?_)
  obtain ⟨entry,inside,made⟩ := exists_left (each_eq_ok.mp reviewed) member
  exact distinct_reviewedTool made (review entry (List.mem_of_mem_filter inside)) keyed

omit [Unicode] in
/-- What has a digest is plain text throughout. -/
theorem scalar_of_contentDigest {document : Dict} {digest : Str} (taken : contentDigest document [] = .ok digest) :
    Value.scalar (.dict document) = true := by
  obtain ⟨data,done,_⟩ := bind_eq_ok.mp taken
  have whole : Dict.without document [] = document := by simp [Dict.without]
  rw [whole] at done
  exact (canonicalBytes_eq_ok.mp done).2.2.1

end Documents

section Snapshots

theorem isAscii_hex {c : CodePoint} (hex : c.isHex = true) : c.isAscii = true := by
  simp only [CodePoint.isHex,CodePoint.isDigit,CodePoint.between,CodePoint.isAscii,Bool.or_eq_true,Bool.and_eq_true,
    decide_eq_true_eq] at hex ⊢
  omega

theorem isAscii_alnum {c : CodePoint} (alnum : c.isAlnum = true) : c.isAscii = true := by
  simp only [CodePoint.isAlnum,CodePoint.isAlpha,CodePoint.isUpper,CodePoint.isLower,CodePoint.isDigit,
    CodePoint.between,CodePoint.isAscii,Bool.or_eq_true,Bool.and_eq_true,decide_eq_true_eq] at alnum ⊢
  omega

theorem scalar_hexdigest (data : Bytes) : (Sha256.hexdigest data).scalar = true :=
  Str.scalar_of_ascii (fun _ member => isAscii_hex (Sha256.isHex_of_mem_hexdigest member))

theorem scalar_digestOf (data : Bytes) : (digestOf data).scalar = true := by
  rw [digestOf,Str.scalar_append,scalar_hexdigest]
  rfl

theorem scalar_snapshotId (data : Bytes) :
    Str.scalar (Str.lit "snap_" ++ List.take 32 (Sha256.hexdigest data)) = true := by
  rw [Str.scalar_append,Bool.and_eq_true]
  exact ⟨rfl,Str.scalar_of_ascii (fun _ member => isAscii_hex (Sha256.isHex_of_mem_hexdigest (List.mem_of_mem_take member)))⟩

theorem scalar_b64uEncode (raw : Bytes) : (b64uEncode raw).scalar = true := by
  rw [b64uEncode_eq_digits]
  apply Str.scalar_of_ascii
  intro c member
  have safe := Base64.isUrlsafe_of_mem_digits raw c member
  simp only [Base64.isUrlsafe,Bool.or_eq_true,beq_iff_eq] at safe
  rcases safe with (alnum | rfl) | rfl
  · exact isAscii_alnum alnum
  · rfl
  · rfl

theorem scalar_isKeyId {keyId : Str} (named : isKeyId keyId = true) : keyId.scalar = true := by
  refine Patterns.scalar_beforeFinalNewline (fun s exact_ => Str.scalar_of_ascii (fun c member => ?_)) named
  rw [Patterns.keyId,Bool.and_eq_true,List.all_eq_true] at exact_
  have safe := exact_.2 c member
  simp only [Patterns.lowerAlnum,Bool.or_eq_true,beq_iff_eq] at safe
  rcases safe with (((alnum | rfl) | rfl) | rfl)
  · apply isAscii_alnum
    rcases alnum with lower | digit
    · simp [CodePoint.isAlnum,CodePoint.isAlpha,lower]
    · simp [CodePoint.isAlnum,digit]
  · rfl
  · rfl
  · rfl

variable {scheme : Ed25519}

/-- The block a key signs a document with. -/
def signatureBlock (key : SigningKey) (signature : Bytes) : Value :=
  .dict [("algorithm",.str signatureAlgorithm),("key_id",.str key.keyId),("value",.str (b64uEncode signature))]

theorem signDocument_eq_ok {document : Dict} {key : SigningKey} {block : Value}
    (signed : signDocument scheme document key = .ok block) : ∃ message, signingInput document = .ok message ∧
      block = signatureBlock key (scheme.sign key.private_ message) := by
  obtain ⟨message,input,signed⟩ := bind_eq_ok.mp signed
  cases signed
  exact ⟨message,input,rfl⟩

/-- A payload with its identity in it. -/
def identified (payload : Dict) (snapshotId digest : Str) : Dict :=
  Dict.set (Dict.set payload "snapshot_id" (.str snapshotId)) "snapshot_digest" (.str digest)

theorem snapshotDocument_eq_ok {payload document : Dict} {signingKey : Option SigningKey} {snapshotId digest : Str}
    (done : snapshotDocument scheme payload signingKey = .ok (document,snapshotId,digest)) :
    contentDigest payload [] = .ok digest ∧ (∃ data, snapshotId = Str.lit "snap_" ++ (Sha256.hexdigest data).take 32) ∧
      ((signingKey = none ∧ document = identified payload snapshotId digest) ∨
        ∃ key message, signingKey = some key ∧ signingInput (identified payload snapshotId digest) = .ok message ∧
          document = Dict.set (identified payload snapshotId digest) signatureField
            (signatureBlock key (scheme.sign key.private_ message))) := by
  unfold snapshotDocument at done
  obtain ⟨taken,digested,done⟩ := bind_eq_ok.mp done
  obtain ⟨id,named,done⟩ := bind_eq_ok.mp done
  obtain ⟨data,_,named⟩ := bind_eq_ok.mp named
  cases named
  cases signingKey with
  | none =>
    cases done
    exact ⟨digested,⟨data,rfl⟩,Or.inl ⟨rfl,rfl⟩⟩
  | some key =>
    obtain ⟨block,signed,done⟩ := bind_eq_ok.mp done
    cases done
    obtain ⟨message,input,rfl⟩ := signDocument_eq_ok signed
    exact ⟨digested,⟨data,rfl⟩,Or.inr ⟨key,message,rfl,input,rfl⟩⟩

/-- The columns give a snapshot back as it was built. -/
theorem reload_snapshotDocument {payload document : Dict} {signingKey : Option SigningKey} {snapshotId digest : Str}
    (done : snapshotDocument scheme payload signingKey = .ok (document,snapshotId,digest))
    (distinct : Value.distinct (.dict payload) = true) : Value.reloadMembers [] document = document := by
  obtain ⟨taken,⟨data,rfl⟩,shape⟩ := snapshotDocument_eq_ok done
  have plain := scalar_of_contentDigest taken
  obtain ⟨bytes,_,hashed⟩ := bind_eq_ok.mp taken
  cases hashed
  have named : ∀ id digest, Value.distinct (.dict (identified payload id digest)) = true := fun _ _ =>
    Value.distinct_set "snapshot_digest" (Value.distinct_set "snapshot_id" distinct (Value.distinct_str _))
      (Value.distinct_str _)
  have text : Value.scalar (.dict (identified payload (Str.lit "snap_" ++ List.take 32 (Sha256.hexdigest data))
      (digestOf bytes))) = true :=
    Value.every_set (Value.every_set plain (by decide) (scalar_snapshotId data)) (by decide) (scalar_digestOf bytes)
  rcases shape with ⟨_,rfl⟩ | ⟨key,message,_,_,rfl⟩
  · exact Value.reloadMembers_of_scalar (named _ _) text
  · refine Value.reloadMembers_of_scalar (Value.distinct_set signatureField (named _ _) ?_) (Value.every_set text (by decide) ?_)
    · rfl
    · simp only [signatureBlock,Value.every_dict,List.forall_mem_cons]
      refine ⟨⟨by decide,by decide⟩,⟨by decide,scalar_isKeyId key.named⟩,⟨by decide,scalar_b64uEncode _⟩,?_⟩
      simp

end Snapshots

end ToolLayer.ControlPlane
