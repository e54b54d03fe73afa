import ToolLayer.Runtime.Authenticity
import ToolLayer.Runtime.Store

/-! A network that replays signed documents: what the store holds over a whole run. -/
namespace ToolLayer.Runtime
open Python Kit Kit.Result

/-- One call on the store, with the network and the clock at that time. -/
inductive Visit where
  | refresh (get : HttpRequest → Answer) (now : Rat)
  | ensureFresh (get : HttpRequest → Answer) (now later : Rat)

def Visit.get : Visit → HttpRequest → Answer
  | .refresh get _ => get
  | .ensureFresh get _ _ => get

section Models

variable [Pydantic] [Unicode]

/-- The deployment and the revision of a snapshot are those its document names. -/
theorem read_named {document : Dict} {snapshot : DeploymentSnapshot}
    (read : DeploymentSnapshot.modelValidate (.dict document) = .ok snapshot) :
    Dict.get document "deployment_key" = .str snapshot.deploymentKey ∧
      Pydantic.laxInt (Dict.get document "revision") = some snapshot.revision := by
  have done : DeploymentSnapshot.read (.dict document) = some snapshot := by
    unfold DeploymentSnapshot.modelValidate at read
    split at read
    next found => rw [found,Except.ok.inj read]
    next => cases read
  simp only [DeploymentSnapshot.read,Option.bind_eq_bind,Option.bind_eq_some_iff] at done
  obtain ⟨d,members,_,_,_,_,key,keyed,revision,revised,_,_,_,_,_,_,_,_,built⟩ := done
  obtain ⟨same,_⟩ := Read.members_eq_some members
  cases same
  obtain ⟨keyValue,keyFound,keyRead⟩ := Read.field_eq_some keyed
  obtain ⟨revisionValue,revisionFound,revisionRead⟩ := Read.field_eq_some revised
  obtain ⟨accepted,rfl⟩ := validated_eq_ok.mp (toOption_eq_some.mp built)
  simp only [Dict.get,keyFound,revisionFound,Option.getD_some]
  refine ⟨?_,revisionRead⟩
  cases keyValue with
  | str s =>
    cases keyRead
    rfl
  | _ => cases keyRead

end Models

section Runs

variable [Pydantic] [Unicode] (world : Surroundings)

def Visit.after (store : SnapshotStore) : Visit → SnapshotStore
  | .refresh get now => (store.refresh world get now).2
  | .ensureFresh get now later => (store.ensureFresh world get now later).2

def runVisits (store : SnapshotStore) (visits : List Visit) : SnapshotStore := visits.foldl (Visit.after world) store

/-- The document a trusted key's holder signed, if the answer is one, is for the store's
deployment and not older than what the store holds. Anything else may be answered. -/
def Faithful (signed : Bytes → Dict → Bytes → Prop) (ring : TrustedKeyRing) (store : SnapshotStore) (answer : Answer) :
    Prop :=
  ∀ r document key original signature, answer = .response r → world.json r.content = some (.dict document) →
    key ∈ ring.keys → signed key.public_ original signature → SameContent original document →
    Dict.get document "deployment_key" = .str store.deploymentKey ∧
      ∀ held ∈ store.current, ∀ revision, Pydantic.laxInt (Dict.get document "revision") = some revision →
        held.revision ≤ revision

/-- The network is faithful at every call of the run. -/
def FaithfulRun (signed : Bytes → Dict → Bytes → Prop) (ring : TrustedKeyRing) : SnapshotStore → List Visit → Prop
  | _,[] => True
  | store,visit::rest =>
    Faithful world signed ring store (store.answer visit.get) ∧ FaithfulRun signed ring (visit.after world store) rest

/-- From one store to a later one: the same deployment, and no older snapshot. -/
structure Advances (before after : SnapshotStore) : Prop where
  client : after.client = before.client
  deploymentKey : after.deploymentKey = before.deploymentKey
  revision : ∀ held ∈ before.current, ∃ next ∈ after.current, held.revision ≤ next.revision

/-- The store holds a snapshot of its own deployment, if any. -/
def Own (store : SnapshotStore) : Prop := ∀ held ∈ store.current, held.snapshot.deploymentKey = store.deploymentKey

variable {world} {signed : Bytes → Dict → Bytes → Prop} {ring : TrustedKeyRing} {store : SnapshotStore}

theorem runVisits_single (world : Surroundings) (store : SnapshotStore) (visit : Visit) :
    runVisits world store [visit] = visit.after world store := rfl

/-- No call changes the deployment the store is configured for. -/
theorem deploymentKey_after (world : Surroundings) (store : SnapshotStore) (visit : Visit) :
    (visit.after world store).deploymentKey = store.deploymentKey := by
  have refreshed : ∀ get now, (store.refresh world get now).2.deploymentKey = store.deploymentKey := by
    intro get now
    rcases refresh_cases world store get now with same | ⟨_,_,marked⟩ | ⟨_,_,_,_,_,installed⟩
    · rw [same]
    · rw [marked]
      rfl
    · rw [installed]
      rfl
  cases visit with
  | refresh get now => exact refreshed get now
  | ensureFresh get now later =>
    rcases ensureFresh_cases world store get now later with ⟨_,_,served⟩ | again
    · rw [Visit.after,served]
    · rw [Visit.after,again]
      exact refreshed get later

theorem Advances.refl (store : SnapshotStore) : Advances store store :=
  ⟨rfl,rfl,fun held member => ⟨held,member,le_refl _⟩⟩

theorem Advances.trans {a b c : SnapshotStore} (first : Advances a b) (second : Advances b c) : Advances a c := by
  refine ⟨second.client.trans first.client,second.deploymentKey.trans first.deploymentKey,?_⟩
  intro held member
  obtain ⟨next,present,grows⟩ := first.revision held member
  obtain ⟨last,there,later⟩ := second.revision next present
  exact ⟨last,there,grows.trans later⟩

/-- A faithful refresh advances the store: the signature covers the deployment and the revision. -/
theorem refresh_advances (ideal : IdealSignatures world.scheme signed)
    (required : store.client.verification = ⟨.required,ring⟩) {get : HttpRequest → Answer} {now : Rat}
    (faithful : Faithful world signed ring store (store.answer get)) (own : Own store) :
    Own (store.refresh world get now).2 ∧ Advances store (store.refresh world get now).2 := by
  rcases refresh_cases world store get now with same | ⟨existing,held,marked⟩ | ⟨r,fetched,answered,_,loads,installed⟩
  · rw [same]
    exact ⟨own,Advances.refl store⟩
  · rw [marked]
    constructor
    · intro next member
      cases member
      exact own existing held
    · refine ⟨rfl,rfl,?_⟩
      intro other member
      rw [held] at member
      cases member
      exact ⟨_,rfl,le_refl _⟩
  · rw [installed]
    unfold SnapshotClient.load at loads
    split at loads
    next => cases loads
    next value parsed =>
      rw [required] at loads
      obtain ⟨document,key,original,signature,_,rfl,trusted,signs,content,_⟩ :=
        (load_authentic world.engine ring ideal).1 value r.etag now fetched loads
      obtain ⟨_,same,accepted,_,_⟩ := loadSnapshotDocument_eq_ok.mp loads
      cases same
      obtain ⟨named,revised⟩ := read_named accepted.validated
      obtain ⟨deployment,newer⟩ := faithful r document key original signature answered parsed trusted signs content
      rw [named] at deployment
      constructor
      · intro next member
        cases member
        exact Value.str.inj deployment
      · exact ⟨rfl,rfl,fun held member => ⟨fetched,rfl,newer held member _ revised⟩⟩

theorem visit_advances (ideal : IdealSignatures world.scheme signed)
    (required : store.client.verification = ⟨.required,ring⟩) {visit : Visit}
    (faithful : Faithful world signed ring store (store.answer visit.get)) (own : Own store) :
    Own (visit.after world store) ∧ Advances store (visit.after world store) := by
  cases visit with
  | refresh get now => exact refresh_advances ideal required faithful own
  | ensureFresh get now later =>
    rcases ensureFresh_cases world store get now later with ⟨held,_,served⟩ | refreshed
    · rw [Visit.after,served]
      exact ⟨own,Advances.refl store⟩
    · rw [Visit.after,refreshed]
      exact refresh_advances ideal required faithful own

theorem run_advances (ideal : IdealSignatures world.scheme signed) {visits : List Visit}
    (required : store.client.verification = ⟨.required,ring⟩) (faithful : FaithfulRun world signed ring store visits)
    (own : Own store) : Own (runVisits world store visits) ∧ Advances store (runVisits world store visits) := by
  induction visits generalizing store with
  | nil => exact ⟨own,Advances.refl store⟩
  | cons visit rest ih =>
    obtain ⟨kept,step⟩ := visit_advances ideal required faithful.1 own
    obtain ⟨last,tail⟩ := ih (by rw [step.client,required]) faithful.2 kept
    exact ⟨last,step.trans tail⟩

theorem faithfulRun_append {front back : List Visit} : FaithfulRun world signed ring store (front ++ back) ↔
    FaithfulRun world signed ring store front ∧ FaithfulRun world signed ring (runVisits world store front) back := by
  induction front generalizing store with
  | nil => simp [FaithfulRun,runVisits]
  | cons visit rest ih =>
    rw [List.cons_append,FaithfulRun,FaithfulRun,ih,and_assoc]
    rfl

/-- After every part of the run the store holds its own deployment's snapshot, if any, and
after every longer part nothing older. -/
def Steadfast (world : Surroundings) (store : SnapshotStore) (visits : List Visit) : Prop :=
  ∀ front middle back, visits = front ++ (middle ++ back) →
    (∀ held ∈ (runVisits world store front).current, held.snapshot.deploymentKey = store.deploymentKey) ∧
      ∀ held ∈ (runVisits world store front).current, ∃ next ∈ (runVisits world store (front ++ middle)).current,
        held.revision ≤ next.revision

/-- While only current documents of the deployment are replayed, the store is steadfast. -/
theorem replay_harmless (ideal : IdealSignatures world.scheme signed)
    (required : store.client.verification = ⟨.required,ring⟩) (empty : store.current = none) {visits : List Visit}
    (faithful : FaithfulRun world signed ring store visits) : Steadfast world store visits := by
  intro front middle back split
  rw [split,faithfulRun_append,faithfulRun_append] at faithful
  obtain ⟨first,second,_⟩ := faithful
  have start : Own store := by simp [Own,empty]
  obtain ⟨own,advanced⟩ := run_advances ideal required first start
  have still : (runVisits world store front).client.verification = ⟨.required,ring⟩ := by rw [advanced.client,required]
  obtain ⟨_,later⟩ := run_advances ideal still second own
  have appended : runVisits world store (front ++ middle) = runVisits world (runVisits world store front) middle :=
    List.foldl_append
  refine ⟨fun held member => (own held member).trans advanced.deploymentKey,?_⟩
  rw [appended]
  exact later.revision

end Runs

section Desk

local instance replayUnicode : Unicode := Unicode.asciiOnly
local instance replayPydantic : Pydantic := Pydantic.exact

/-- Three documents that one trusted key signed at some time. -/
def replayedDocuments : List Dict := [emptySnapshot "desk" 2,emptySnapshot "desk" 1,emptySnapshot "other" 1]

/-- The body is the position of the document the adversary picks. -/
def replayWorld : Surroundings where
  scheme := recorded replayedDocuments
  engine := SchemaSubset.engine
  json content := (replayedDocuments[content.length]?).map .dict

def replay (position : Nat) : Visit := .refresh (fun _ => .response ⟨200,none,List.replicate position 0⟩) 0

def deskStore : SnapshotStore :=
  SnapshotStore.new (SnapshotClient.new "http://control.test" "token" ⟨.required,deskRing⟩) "desk" 60

/-- The deployment and the revision the store holds. -/
def heldBy (store : SnapshotStore) : Option (Str × Int) :=
  store.current.map (fun held => (held.snapshot.deploymentKey,held.revision))

/-- The block of the document decodes to a signature over it. -/
def signedHere (document : Dict) : Bool :=
  match Dict.get document signatureField with
  | .dict block =>
    match Dict.get block "value",signingInput document with
    | .str value,.ok message =>
      Value.pyEq (Dict.get block "key_id") (.str "desk-1") &&
        okWith (fun signature => decide (signature = hashSignature message)) (b64uDecode value signatureBytes)
    | _,_ => false
  | _ => false

theorem genuine_of_signedHere {documents : List Dict} {document : Dict} (member : document ∈ documents)
    (checked : signedHere document = true) : Genuine (Recorded documents) deskRing document := by
  unfold signedHere at checked
  split at checked
  next block present =>
    split at checked
    next value message valued input =>
      rw [Bool.and_eq_true] at checked
      obtain ⟨signature,decoded,same⟩ := exists_of_okWith checked.2
      have named : Dict.get block "key_id" = .str "desk-1" := by
        cases shape : Dict.get block "key_id" with
        | str s => simpa [shape,Value.pyEq] using checked.1
        | _ => simp [shape,Value.pyEq] at checked
      exact ⟨_,List.mem_singleton.mpr rfl,block,value,signature,present,named,valued,decoded,
        ⟨member,message,input,of_decide_eq_true same⟩,message,input⟩
    next => cases checked
  next => cases checked

/-- The documents and the runs, evaluated together. -/
def replaysChecked : PLift ((separate replayedDocuments = true ∧ replayedDocuments.all signedHere = true ∧
    heldBy (runVisits replayWorld deskStore [replay 0]) = some (Str.lit "desk",2) ∧
    heldBy (runVisits replayWorld deskStore [replay 0,replay 1]) = some (Str.lit "desk",1) ∧
    heldBy (runVisits replayWorld deskStore [replay 2]) = some (Str.lit "other",1)) ∧
    heldBy (runVisits replayWorld deskStore [replay 1]) = some (Str.lit "desk",1)) :=
  ⟨by decide +kernel⟩

theorem replayed_checked : separate replayedDocuments = true ∧ replayedDocuments.all signedHere = true ∧
    heldBy (runVisits replayWorld deskStore [replay 0]) = some (Str.lit "desk",2) ∧
    heldBy (runVisits replayWorld deskStore [replay 0,replay 1]) = some (Str.lit "desk",1) ∧
    heldBy (runVisits replayWorld deskStore [replay 2]) = some (Str.lit "other",1) :=
  replaysChecked.down.1

theorem exists_of_heldBy {store : SnapshotStore} {key : Str} {revision : Int} (shown : heldBy store = some (key,revision)) :
    ∃ held ∈ store.current, held.snapshot.deploymentKey = key ∧ held.revision = revision := by
  obtain ⟨held,present,same⟩ := Option.map_eq_some_iff.mp shown
  obtain ⟨rfl,rfl⟩ := Prod.mk.inj same
  exact ⟨held,present,rfl,rfl⟩

/-- Under an ideal scheme, answered with genuine documents only, the store goes back to an
older revision, and serves another deployment's snapshot. -/
theorem replay_misleads : IdealSignatures replayWorld.scheme (Recorded replayedDocuments) ∧
    (∀ document ∈ replayedDocuments, Genuine (Recorded replayedDocuments) deskRing document) ∧
    ¬ Steadfast replayWorld deskStore [replay 0,replay 1] ∧ ¬ Steadfast replayWorld deskStore [replay 2] := by
  obtain ⟨apart,signed,first,second,third⟩ := replayed_checked
  refine ⟨idealSignatures_recorded apart,?_,?_,?_⟩
  · intro document member
    exact genuine_of_signedHere member (List.all_eq_true.mp signed document member)
  · intro steadfast
    obtain ⟨held,present,_,revision⟩ := exists_of_heldBy first
    obtain ⟨next,there,grows⟩ := (steadfast [replay 0] [replay 1] [] rfl).2 held present
    obtain ⟨last,stored,_,later⟩ := exists_of_heldBy second
    have grown : (runVisits replayWorld deskStore ([replay 0] ++ [replay 1])).current = some last := stored
    rw [grown] at there
    cases there
    omega
  · intro steadfast
    obtain ⟨held,present,key,_⟩ := exists_of_heldBy third
    have own := (steadfast [replay 2] [] [] rfl).1 held present
    rw [key] at own
    exact absurd own (by decide)

theorem faithful_replay {store : SnapshotStore} {position : Nat} {document : Dict} {revision : Int}
    (picked : replayedDocuments[position]? = some document)
    (deployment : Dict.get document "deployment_key" = .str store.deploymentKey)
    (revised : Pydantic.laxInt (Dict.get document "revision") = some revision)
    (newer : ∀ held ∈ store.current, held.revision ≤ revision) :
    Faithful replayWorld (Recorded replayedDocuments) deskRing store (store.answer (replay position).get) := by
  intro r other key original signature answered parsed _ _ _
  have response : r = ⟨200,none,List.replicate position 0⟩ := by
    cases answered
    rfl
  have body : replayWorld.json r.content = (replayedDocuments[position]?).map .dict := by
    rw [response]
    change (replayedDocuments[(List.replicate position (0 : Byte)).length]?).map Value.dict = _
    rw [List.length_replicate]
  rw [body,picked] at parsed
  cases parsed
  refine ⟨deployment,?_⟩
  intro held member other found
  rw [revised] at found
  cases found
  exact newer held member

theorem get_emptySnapshot (key : Str) (revision : Int) :
    Dict.get (emptySnapshot key revision) "deployment_key" = .str key ∧
      Dict.get (emptySnapshot key revision) "revision" = .int revision := by
  unfold emptySnapshot
  dsimp only
  split
  · exact ⟨rfl,rfl⟩
  · exact ⟨rfl,rfl⟩

theorem replay_one : heldBy (runVisits replayWorld deskStore [replay 1]) = some (Str.lit "desk",1) :=
  replaysChecked.down.2

/-- Revision 1, then revision 2. -/
theorem replay_harmless_desk : Steadfast replayWorld deskStore [replay 1,replay 0] := by
  have first : Faithful replayWorld (Recorded replayedDocuments) deskRing deskStore (deskStore.answer (replay 1).get) :=
    @faithful_replay deskStore 1 (emptySnapshot "desk" 1) 1 rfl (get_emptySnapshot "desk" 1).1
      (by rw [(get_emptySnapshot "desk" 1).2]; rfl) (fun held member => by cases member)
  obtain ⟨last,stored,_,revision⟩ := exists_of_heldBy replay_one
  rw [runVisits_single] at stored
  have second : Faithful replayWorld (Recorded replayedDocuments) deskRing ((replay 1).after replayWorld deskStore)
      (((replay 1).after replayWorld deskStore).answer (replay 0).get) := by
    refine @faithful_replay _ 0 (emptySnapshot "desk" 2) 2 rfl ?_ (by rw [(get_emptySnapshot "desk" 2).2]; rfl) ?_
    · rw [(get_emptySnapshot "desk" 2).1,deploymentKey_after]
      rfl
    · intro held member
      rw [Option.mem_def] at stored member
      rw [stored] at member
      cases member
      omega
  exact replay_harmless (idealSignatures_recorded replayed_checked.1) rfl rfl ⟨first,second,trivial⟩

end Desk

end ToolLayer.Runtime
