import ToolLayer.Contracts.Refusals
import ToolLayer.Runtime.Replay

/-! What a refresh comes to for every answer of the control plane, and the answers
whose failure is not one the store catches. -/
namespace ToolLayer.Runtime
open Python Kit Kit.Result

/-- A Python dictionary has each key once. -/
structure Surroundings.Dictionaries (world : Surroundings) : Prop where
  distinct : ∀ content document, world.json content = some (.dict document) → (Assoc.keys document).Nodup

/-- The content a snapshot's digest is taken over. -/
def digested (document : Dict) : Value := .dict (Dict.without document snapshotDigestExcluded)

/-- There is a canonical text, but no bytes for it: a lone surrogate, or an integer too long to write. -/
def unencodable (v : Value) : Bool := serializable v && !(writable v && v.scalar)

section Identity

variable [Unicode] {engine : SchemaEngine} {document : Dict}

theorem valid_text (name : Str) (exact_ : Str → Bool)
    (valid : validateDeploymentSnapshot engine (.dict document) = .ok ())
    (listed : (name,Rule.all [Rule.type [.string],Rule.pattern exact_]) ∈ Schemas.snapshotMembers engine)
    (other : name ≠ Str.lit "signature") :
    ∃ s, Assoc.get name document = some (.str s) ∧ Patterns.beforeFinalNewline exact_ s = true := by
  obtain ⟨_,_,_,_,accepted,_⟩ := (validateDeploymentSnapshot_eq_ok engine).mp valid
  obtain ⟨_,each,_⟩ := (deploymentSnapshot_eq_nil engine).mp accepted
  obtain ⟨value,present,passed⟩ := each _ listed other
  rw [Rule.all_cons_eq_nil,Rule.all_cons_eq_nil] at passed
  obtain ⟨s,rfl⟩ := Rule.type_string_eq_nil.mp passed.1
  exact ⟨s,present,by simpa [Rule.pattern] using passed.2.1⟩

theorem valid_snapshotId (valid : validateDeploymentSnapshot engine (.dict document) = .ok ()) :
    ∃ s, Assoc.get (Str.lit "snapshot_id") document = some (.str s) ∧ s.scalar = true := by
  obtain ⟨s,present,matched⟩ := valid_text (Str.lit "snapshot_id") Patterns.snapshotId valid
    (by simp [Schemas.snapshotMembers]) (by simp)
  exact ⟨s,present,Patterns.scalar_beforeFinalNewline (fun _ => Patterns.scalar_tagged_hexadecimal (by decide)) matched⟩

theorem valid_snapshotDigest (valid : validateDeploymentSnapshot engine (.dict document) = .ok ()) :
    ∃ s, Assoc.get (Str.lit "snapshot_digest") document = some (.str s) ∧ s.scalar = true ∧
      Str.startsWith s digestPrefix = true := by
  obtain ⟨s,present,matched⟩ := valid_text (Str.lit "snapshot_digest") Patterns.digest valid
    (by simp [Schemas.snapshotMembers,Schemas.digest]) (by simp)
  refine ⟨s,present,
    Patterns.scalar_beforeFinalNewline (fun _ => Patterns.scalar_tagged_hexadecimal (by decide)) matched,?_⟩
  rw [Patterns.beforeFinalNewline,Bool.or_eq_true,Bool.and_eq_true] at matched
  rw [Str.startsWith,List.isPrefixOf_iff_prefix]
  rcases matched with whole | ⟨_,front⟩
  · rw [Patterns.digest,Patterns.tagged,Bool.and_eq_true,List.isPrefixOf_iff_prefix] at whole
    exact whole.1
  · rw [Patterns.digest,Patterns.tagged,Bool.and_eq_true,List.isPrefixOf_iff_prefix] at front
    exact front.1.trans (List.dropLast_prefix s)

/-- Identity and digest are plain, so what holds throughout the content holds throughout
all that is signed. -/
theorem every_unsigned {leaf : Value → Bool} {text : Str → Bool} (distinct : (Assoc.keys document).Nodup)
    (valid : validateDeploymentSnapshot engine (.dict document) = .ok ())
    (leaves : ∀ s : Str, s.scalar = true → leaf (.str s) = true) (texts : ∀ s : Str, s.scalar = true → text s = true)
    (content : Value.every leaf text (digested document) = true) :
    Value.every leaf text (.dict (unsigned document)) = true := by
  obtain ⟨id,identified,plainId⟩ := valid_snapshotId valid
  obtain ⟨digest,declared,plainDigest,_⟩ := valid_snapshotDigest valid
  rw [digested,Value.every_dict] at content
  rw [Value.every_dict]
  intro m member
  rw [unsigned,Dict.without,List.mem_filter] at member
  have found := Assoc.get_of_mem distinct member.1
  by_cases isId : m.1 = Str.lit "snapshot_id"
  · rw [isId,identified] at found
    rw [isId,← Option.some.inj found]
    exact ⟨texts _ (by decide),leaves id plainId⟩
  · by_cases isDigest : m.1 = Str.lit "snapshot_digest"
    · rw [isDigest,declared] at found
      rw [isDigest,← Option.some.inj found]
      exact ⟨texts _ (by decide),leaves digest plainDigest⟩
    · refine content m (List.mem_filter.mpr ⟨member.1,?_⟩)
      have other : m.1 ≠ signatureField := by simpa using member.2
      simpa [snapshotDigestExcluded,isId,isDigest,signatureField] using other

/-- A document with a digest has a signing input. -/
theorem signingInput_of_digest {digest : Str} (distinct : (Assoc.keys document).Nodup)
    (valid : validateDeploymentSnapshot engine (.dict document) = .ok ())
    (taken : contentDigest document snapshotDigestExcluded = .ok digest) :
    ∃ message, signingInput document = .ok message := by
  obtain ⟨data,done,_⟩ := bind_eq_ok.mp taken
  obtain ⟨plain,written,scalar,_⟩ := canonicalBytes_eq_ok.mp done
  refine ⟨_,canonicalBytes_eq_ok.mpr ⟨?_,?_,?_,rfl⟩⟩
  · exact every_unsigned distinct valid (fun _ _ => rfl) (fun _ _ => rfl) plain
  · exact every_unsigned distinct valid (fun _ _ => rfl) (fun _ _ => rfl) written
  · exact every_unsigned distinct valid (fun _ scalar => scalar) (fun _ scalar => scalar) scalar

end Identity

section Families

variable [Unicode] {scheme : Ed25519} {engine : SchemaEngine} {verification : SnapshotVerification} {document : Dict}

def IsSignatureVerification (e : PyExc) : Prop := ∃ message, e = signatureVerificationError message

omit [Unicode] in
theorem b64uDecode_cases (value : Str) (expectedLength : Nat) : (∃ raw, b64uDecode value expectedLength = .ok raw) ∨
    ∃ message, b64uDecode value expectedLength = .error (invalidKeyMaterial message) := by
  have only : Only (fun e => ∃ message, e = invalidKeyMaterial message) (b64uDecode value expectedLength) := by
    unfold b64uDecode
    refine only_bind (only_refuse (fun _ => ⟨_,rfl⟩)) (fun _ _ => ?_)
    split
    next => exact only_error ⟨_,rfl⟩
    next => exact only_bind (only_refuse (fun _ => ⟨_,rfl⟩)) (fun _ _ => only_ok _)
  cases outcome : b64uDecode value expectedLength with
  | ok raw => exact Or.inl ⟨raw,rfl⟩
  | error e =>
    obtain ⟨message,rfl⟩ := only e outcome
    exact Or.inr ⟨message,rfl⟩

/-- Over a document that has a signing input, verification fails in one way only. -/
theorem only_verifyDocument {ring : TrustedKeyRing} {message : Bytes} (input : signingInput document = .ok message) :
    Only IsSignatureVerification (verifyDocument scheme document ring) := by
  unfold verifyDocument
  split
  next => exact only_error ⟨_,rfl⟩
  next block _ =>
    unfold verifyBlock
    refine only_bind (only_refuse (fun _ => ⟨_,rfl⟩)) (fun _ _ => ?_)
    split
    next =>
      refine only_bind (only_refuse (fun _ => ⟨_,rfl⟩)) (fun _ _ => ?_)
      split
      next => exact only_error ⟨_,rfl⟩
      next =>
        split
        next value _ =>
          rcases b64uDecode_cases value signatureBytes with ⟨raw,decoded⟩ | ⟨_,failed⟩
          · rw [decoded]
            dsimp only
            rw [input,ok_bind]
            exact only_bind (only_refuse (fun _ => ⟨_,rfl⟩)) (fun _ _ => only_ok _)
          · rw [failed]
            exact only_error ⟨_,rfl⟩
        next => exact only_error ⟨_,rfl⟩
    next => exact only_error ⟨_,rfl⟩
  next => exact only_error ⟨_,rfl⟩

theorem only_check {message : Bytes} (input : signingInput document = .ok message) :
    Only IsToolLayer (verification.check scheme document) := by
  have authenticated : Only IsToolLayer (authenticate scheme document verification.trustedKeys) := by
    unfold authenticate
    split
    next => exact only_ok _
    next => exact only_error ⟨_,rfl⟩
    next e other failed =>
      obtain ⟨text,rfl⟩ := only_verifyDocument input e failed
      exact absurd rfl (other text)
  unfold SnapshotVerification.check
  split
  next => exact authenticated
  next =>
    split
    next => exact only_ok _
    next => exact authenticated

omit [Unicode] in
theorem requireSnapshotVersion_cases (document : Dict) :
    (overlong (Dict.get document "contract_version") = false ∧ Only IsToolLayer (requireSnapshotVersion document)) ∨
    (overlong (Dict.get document "contract_version") = true ∧ requireSnapshotVersion document = .error .valueError) := by
  unfold requireSnapshotVersion
  rcases requireSupported_cases (Dict.get document "contract_version") with ⟨version,done,short⟩ |
    ⟨message,failed,short⟩ | ⟨failed,long⟩
  · refine Or.inl ⟨short,?_⟩
    rw [done]
    exact only_ok _
  · refine Or.inl ⟨short,?_⟩
    rw [failed]
    exact only_error ⟨_,rfl⟩
  · refine Or.inr ⟨long,?_⟩
    rw [failed]

/-- The digest check raises exactly when the content has a canonical text without bytes. -/
theorem verifyDigest_cases (valid : validateDeploymentSnapshot engine (.dict document) = .ok ()) :
    ∃ declared, Assoc.get (Str.lit "snapshot_digest") document = some (.str declared) ∧
      ((unencodable (digested document) = false ∧
        ∃ intact, verifyDigest document (.str declared) snapshotDigestExcluded = .ok intact) ∨
      (unencodable (digested document) = true ∧
        ∃ e, verifyDigest document (.str declared) snapshotDigestExcluded = .error e ∧ ¬ IsToolLayer e)) := by
  obtain ⟨declared,present,_,tagged⟩ := valid_snapshotDigest valid
  refine ⟨declared,present,?_⟩
  unfold verifyDigest
  dsimp only
  rw [if_pos tagged]
  have encodable (data : Bytes) (done : canonicalBytes (digested document) = .ok data) :
      unencodable (digested document) = false := by
    obtain ⟨_,written,scalar,_⟩ := canonicalBytes_eq_ok.mp done
    rw [unencodable,written,scalar]
    simp
  have foreign (message : Str) (failed : canonicalBytes (digested document) = .error (canonicalJsonError message)) :
      unencodable (digested document) = false := by
    cases plain : serializable (digested document) with
    | false => rw [unencodable,plain,Bool.false_and]
    | true =>
      rcases canonicalBytes_cases (digested document) with ⟨data,done⟩ | ⟨other,_⟩ | ⟨_,_,e,refused,kind⟩
      · exact encodable data done
      · rw [plain] at other
        cases other
      · rw [failed] at refused
        cases refused
        rcases kind with value | unicode
        · cases value
        · cases unicode
  rcases contentDigest_cases document snapshotDigestExcluded with ⟨digest,done⟩ | ⟨message,failed⟩ |
    ⟨plain,unfit,e,failed,kind⟩
  · obtain ⟨data,bytes,_⟩ := bind_eq_ok.mp done
    rw [done]
    exact Or.inl ⟨encodable data bytes,_,rfl⟩
  · rcases bind_eq_error.mp failed with refused | ⟨_,_,later⟩
    · rw [failed]
      exact Or.inl ⟨foreign message refused,false,rfl⟩
    · cases later
  · refine Or.inr ⟨?_,e,?_,?_⟩
    · rw [unencodable,digested,plain,unfit]
      rfl
    · rw [failed]
      rcases kind with rfl | rfl
      · rfl
      · rfl
    · rintro ⟨t,rfl⟩
      rcases kind with value | unicode
      · cases value
      · cases unicode

end Families

section Loading

variable [Pydantic] [Unicode] {scheme : Ed25519} {engine : SchemaEngine} {verification : SnapshotVerification}
  {document : Dict}

theorem only_indexOf (snapshot : DeploymentSnapshot) : Only IsToolLayer (indexOf snapshot) := by
  refine only_loop (fun index connector _ => only_loop (fun index tool _ => ?_))
  unfold indexTool
  split
  next => exact only_error ⟨_,rfl⟩
  next => exact only_ok _

theorem read_connectors {snapshot : DeploymentSnapshot}
    (read : DeploymentSnapshot.read (.dict document) = some snapshot) :
    ∃ v, Assoc.get (Str.lit "connectors") document = some v ∧
      Read.tuple ConnectorDefinition.read v = some snapshot.connectors := by
  simp only [DeploymentSnapshot.read,Option.bind_eq_bind,Option.bind_eq_some_iff] at read
  obtain ⟨d,members,_,_,_,_,_,_,_,_,_,_,_,_,connectors,listed,_,_,built⟩ := read
  cases (Read.members_eq_some members).1
  obtain ⟨_,rfl⟩ := validated_eq_ok.mp (toOption_eq_some.mp built)
  exact Read.field_eq_some listed

omit [Pydantic] [Unicode] in
/-- Content that has canonical bytes holds JSON values with encodable text only. -/
theorem every_digested {digest : Str} (taken : contentDigest document snapshotDigestExcluded = .ok digest) :
    Value.every (fun | .other _ _ _ => false | _ => true) Str.scalar (digested document) = true := by
  obtain ⟨data,done,_⟩ := bind_eq_ok.mp taken
  obtain ⟨plain,_,scalar,_⟩ := canonicalBytes_eq_ok.mp done
  refine Value.every_of_every ?_ ?_ (Value.every_and plain scalar)
  · intro v leaf
    cases v with
    | other kind repr json => cases leaf
    | _ => rfl
  · intro s text
    rwa [Bool.true_and] at text

/-- A snapshot read from content that has canonical bytes can be dumped and read again. -/
theorem revalidate_total {digest : Str} {snapshot : DeploymentSnapshot}
    (taken : contentDigest document snapshotDigestExcluded = .ok digest)
    (read : DeploymentSnapshot.read (.dict document) = some snapshot) :
    ∀ connector ∈ snapshot.connectors, revalidate connector = .ok () := by
  have content := every_digested taken
  obtain ⟨v,found,listed⟩ := read_connectors read
  obtain ⟨items,rfl,each⟩ := Read.tuple_eq_some listed
  have inside := (Value.every_dict.mp content _ (List.mem_filter.mpr ⟨Assoc.mem_of_get found,
    by simp [snapshotDigestExcluded]⟩)).2
  intro connector member
  obtain ⟨item,present,parsed⟩ := exists_left each member
  have schemas := ConnectorDefinition.every_inputSchema parsed (Value.every_list.mp inside item present)
  obtain ⟨out,dumped⟩ := ConnectorDefinition.dump_of_every schemas
  obtain ⟨again,validated⟩ := ConnectorDefinition.modelValidate_dump dumped
  rw [revalidate,dumped,ok_bind,validated]
  rfl

/-- What a document fails on with an exception that is not the runtime's own: a version
number `int()` does not read, content UTF-8 cannot write, or a shape only the schema accepts. -/
inductive Escapes (scheme : Ed25519) (engine : SchemaEngine) (verification : SnapshotVerification) (document : Dict) :
    Prop where
  | version (long : overlong (Dict.get document "contract_version") = true)
  | content (supported : requireSnapshotVersion document = .ok ())
      (valid : validateDeploymentSnapshot engine (.dict document) = .ok ())
      (unencodable : unencodable (digested document) = true)
  | model (keyId : Option Str) (verified : verifySnapshot scheme engine verification document = .ok keyId)
      (unread : DeploymentSnapshot.read (.dict document) = none)

theorem only_verifySnapshot (distinct : (Assoc.keys document).Nodup)
    (caught : ¬ Escapes scheme engine verification document) :
    Only IsToolLayer (verifySnapshot scheme engine verification document) := by
  rcases requireSnapshotVersion_cases document with ⟨short,supported⟩ | ⟨long,_⟩
  · refine only_bind supported (fun _ versioned => ?_)
    refine only_bind (only_validateDeploymentSnapshot engine short) (fun _ valid => ?_)
    obtain ⟨declared,present,cases_⟩ := verifyDigest_cases valid
    rw [item_eq_ok.mpr present,ok_bind,strOf,ok_bind]
    rcases cases_ with ⟨_,intact,done⟩ | ⟨unfit,_⟩
    · rw [done,ok_bind]
      refine only_bind (only_refuse (fun _ => ⟨_,rfl⟩)) (fun _ matched => ?_)
      have same : intact = true := by simpa using matched
      obtain ⟨_,digest⟩ := verifyDigest_eq_true.mp (same ▸ done)
      obtain ⟨message,input⟩ := signingInput_of_digest distinct valid digest
      exact only_check input
    · exact absurd (.content versioned valid unfit) caught
  · exact absurd (.version long) caught

/-- Loading raises only the runtime's own errors, unless the document escapes. -/
theorem only_loadSnapshotDocument (distinct : (Assoc.keys document).Nodup) (etag : Option Str) (now : Rat) :
    Only IsToolLayer (loadSnapshotDocument scheme engine verification (.dict document) etag now) ↔
      ¬ Escapes scheme engine verification document := by
  constructor
  · intro only escapes
    cases escapes with
    | version long =>
      rcases requireSnapshotVersion_cases document with ⟨short,_⟩ | ⟨_,failed⟩
      · rw [short] at long
        cases long
      · obtain ⟨t,foreign⟩ := only .valueError (by rw [loadSnapshotDocument,verifySnapshot,failed]; rfl)
        cases foreign
    | content supported valid unfit =>
      obtain ⟨declared,present,cases_⟩ := verifyDigest_cases valid
      rcases cases_ with ⟨fit,_⟩ | ⟨_,e,failed,foreign⟩
      · rw [unfit] at fit
        cases fit
      · refine foreign (only e ?_)
        rw [loadSnapshotDocument,verifySnapshot,supported,ok_bind,valid,ok_bind,item_eq_ok.mpr present,ok_bind,strOf,
          ok_bind,failed]
        rfl
    | model keyId verified unread =>
      obtain ⟨t,foreign⟩ := only .validationError (by
        rw [loadSnapshotDocument,verified,ok_bind,DeploymentSnapshot.modelValidate,unread]
        rfl)
      cases foreign
  · intro caught
    refine only_bind (only_verifySnapshot distinct caught) (fun keyId verified => ?_)
    cases read : DeploymentSnapshot.read (.dict document) with
    | none => exact absurd (.model keyId verified read) caught
    | some snapshot =>
      obtain ⟨_,_,digest⟩ := (verifySnapshot_eq_ok.mp verified).digest
      have again := revalidate_total digest read
      rw [DeploymentSnapshot.modelValidate,read]
      dsimp only
      rw [ok_bind,loop_unit_eq_ok.mpr again,ok_bind]
      exact only_bind (only_indexOf snapshot) (fun _ _ => only_ok _)

end Loading

section Graceful

variable [Pydantic] [Unicode] (world : Surroundings)

/-- The answer carries no JSON, or a document that escapes. -/
def Response.Escapes (client : SnapshotClient) (r : Response) : Prop :=
  match world.json r.content with
  | none => True
  | some (.dict document) => Runtime.Escapes world.scheme world.engine client.verification document
  | some _ => False

/-- A refresh of a store that holds a snapshot, when no failure of the refresh is one of serving. -/
def Graceful (store : SnapshotStore) (existing : LoadedSnapshot) (get : HttpRequest → Answer) (now : Rat) : Prop :=
  store.refresh world get now =
    match store.answer get with
    | .httpError => (.ok existing,store)
    | .response r =>
      if r.status = 304 then (.ok { existing with loadedAt := now },store.install { existing with loadedAt := now })
      else if 400 ≤ r.status then (.ok existing,store)
      else match store.client.load world r now with
        | .ok fetched => (.ok fetched,store.install fetched)
        | .error _ => (.ok existing,store)

variable {world} {client : SnapshotClient} {store : SnapshotStore} {existing : LoadedSnapshot}
  {get : HttpRequest → Answer} {r : Response} {now : Rat}

theorem only_load (dictionaries : world.Dictionaries) :
    Only IsToolLayer (client.load world r now) ↔ ¬ r.Escapes world client := by
  unfold SnapshotClient.load Response.Escapes
  cases read : world.json r.content with
  | none =>
    simp only [not_true,iff_false]
    intro only
    obtain ⟨t,foreign⟩ := only _ rfl
    cases foreign
  | some value =>
    cases value with
    | dict document => exact only_loadSnapshotDocument (dictionaries.distinct _ _ read) r.etag now
    | _ =>
      simp only [not_false_eq_true,iff_true]
      exact only_error (isToolLayer_error _ _ _ _)

/-- What the store makes of a failed fetch. -/
theorem refresh_failed (held : store.current = some existing) {e : PyExc}
    (failed : store.client.fetch world get store.deploymentKey (store.current.bind LoadedSnapshot.etag) now = .error e) :
    (IsToolLayer e ∧ store.refresh world get now = (.ok existing,store)) ∨
      (¬ IsToolLayer e ∧ store.refresh world get now = (.error e,store)) := by
  rw [isToolLayer_iff]
  cases known : e.toolLayer? with
  | some t =>
    refine Or.inl ⟨rfl,?_⟩
    rw [held] at failed
    simp only [SnapshotStore.refresh,held,failed,known]
  | none =>
    refine Or.inr ⟨by simp,?_⟩
    rw [held] at failed
    simp only [SnapshotStore.refresh,held,failed,known]

/-- A refresh is graceful exactly when what is answered is not a document that escapes. -/
theorem refresh_graceful (dictionaries : world.Dictionaries) (held : store.current = some existing)
    (get : HttpRequest → Answer) (now : Rat) : Graceful world store existing get now ↔
      ∀ r, store.answer get = .response r → r.serves = true → ¬ r.Escapes world store.client := by
  unfold Graceful
  cases answered : store.answer get with
  | httpError =>
    have failed := @fetch_httpError _ _ world store.client get store.deploymentKey _ now answered
    rcases refresh_failed held failed with ⟨_,kept⟩ | ⟨foreign,_⟩
    · simp [kept]
    · exact absurd (isToolLayer_error _ _ _ _) foreign
  | response r =>
    have others : ∀ other, Answer.response r = .response other → other = r := fun other same =>
      (Answer.response.inj same).symm
    dsimp only
    by_cases unchanged : r.status = 304
    · have fetched := @fetch_unchanged _ _ world store.client get store.deploymentKey _ now r answered unchanged
      have kept : r.serves = false := by simp [Response.serves,unchanged]
      rw [if_pos unchanged]
      constructor
      · intro _ other same serves
        rw [others other same,kept] at serves
        cases serves
      · intro _
        rw [held] at fetched
        simp only [SnapshotStore.refresh,held,fetched]
    · rw [if_neg unchanged]
      by_cases refused : 400 ≤ r.status
      · obtain ⟨e,failed⟩ := @fetch_refused _ _ world store.client get store.deploymentKey _ now r answered refused
        have kept : r.serves = false := by simp [Response.serves,refused]
        rw [if_pos refused]
        constructor
        · intro _ other same serves
          rw [others other same,kept] at serves
          cases serves
        · intro _
          rcases refresh_failed held failed with ⟨_,done⟩ | ⟨foreign,_⟩
          · exact done
          · exact absurd ⟨e,rfl⟩ foreign
      · have serves : r.serves = true := by simp [Response.serves,unchanged,Nat.lt_of_not_le refused]
        have fetched := @fetch_serves _ _ world store.client get store.deploymentKey _ now r answered serves
        rw [if_neg refused]
        have only : Only IsToolLayer (store.client.load world r now) ↔
            ∀ other, Answer.response r = .response other → other.serves = true → ¬ other.Escapes world store.client := by
          rw [only_load dictionaries]
          constructor
          · intro caught other same _
            rwa [others other same]
          · exact fun all => all r rfl serves
        rw [← only]
        cases loaded : store.client.load world r now with
        | ok next =>
          rw [loaded] at fetched
          refine iff_of_true ?_ (only_ok next)
          rw [SnapshotStore.refresh,fetched]
          rfl
        | error e =>
          rw [loaded] at fetched
          rcases refresh_failed held fetched with ⟨own,done⟩ | ⟨foreign,done⟩
          · exact iff_of_true done (only_error own)
          · rw [done]
            refine iff_of_false ?_ (fun only => foreign (only e rfl))
            intro same
            cases congrArg Prod.fst same

end Graceful

section Desk

local instance refreshUnicode : Unicode := Unicode.asciiOnly
local instance refreshPydantic : Pydantic := Pydantic.exact

/-- Reads the JSON text `null`. -/
def nullWorld : Surroundings where
  scheme := recorded deskDocuments
  engine := SchemaSubset.engine
  json content := if content = Utf8.bytes "null" then some .null else none

def answers (content : Bytes) : HttpRequest → Answer := fun _ => .response ⟨200,none,content⟩

theorem exists_holding : ∃ (existing : LoadedSnapshot) (store : SnapshotStore), store.current = some existing ∧
    store.deploymentKey = Str.lit "desk" := by
  obtain ⟨loaded,_,_⟩ := exists_of_okWith emptySnapshot_loads
  exact ⟨loaded,deskStore.install loaded,rfl,rfl⟩

/-- A body that is not JSON ends the request, although there is a snapshot to serve. -/
theorem not_json_escapes : ∃ (existing : LoadedSnapshot) (store : SnapshotStore), store.current = some existing ∧
    store.refresh nullWorld (answers []) 0 = (.error .valueError,store) ∧
    ¬ Graceful nullWorld store existing (answers []) 0 := by
  obtain ⟨existing,store,held,_⟩ := exists_holding
  have unread : nullWorld.json [] = none := by decide
  have fetched : store.client.fetch nullWorld (answers []) store.deploymentKey
      (store.current.bind LoadedSnapshot.etag) 0 = .error .valueError := by
    rw [fetch_serves rfl rfl,SnapshotClient.load,unread]
    rfl
  rcases refresh_failed held fetched with ⟨⟨t,own⟩,_⟩ | ⟨_,done⟩
  · cases own
  · refine ⟨existing,store,held,done,?_⟩
    intro graceful
    rw [Graceful,done] at graceful
    have answered : store.answer (answers []) = .response ⟨200,none,[]⟩ := rfl
    rw [answered] at graceful
    have load : store.client.load nullWorld ⟨200,none,[]⟩ 0 = .error .valueError := by
      rw [SnapshotClient.load,unread]
    simp only [load] at graceful
    cases congrArg Prod.fst graceful

theorem refresh_graceful_null : ∃ (existing : LoadedSnapshot) (store : SnapshotStore), store.current = some existing ∧
    Graceful nullWorld store existing (answers (Utf8.bytes "null")) 0 := by
  obtain ⟨existing,store,held,_⟩ := exists_holding
  have dictionaries : nullWorld.Dictionaries := by
    constructor
    intro content document read
    simp only [nullWorld] at read
    split at read
    · cases read
    · cases read
  refine ⟨existing,store,held,(refresh_graceful dictionaries held _ _).mpr ?_⟩
  intro r answered _ escapes
  cases answered
  exact escapes

end Desk

end ToolLayer.Runtime
