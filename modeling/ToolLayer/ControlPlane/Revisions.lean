import ToolLayer.Contracts.SchemaSubset
import ToolLayer.ControlPlane.Effects

/-! The draft revision as a token: what it says about the draft a request carrying it
acts on, over whole runs. -/
namespace ToolLayer.ControlPlane
open Python Kit Kit.Result OpenApi

/-- What a client that reads a draft sees of it. -/
structure DraftContent where
  analysis : Dict
  review : Dict
  baseUrl : Option Str
  proposedVersion : Str
  sourceDigest : Str

def ConnectorDraft.content (d : ConnectorDraft) : DraftContent :=
  ⟨d.analysis,d.review,d.baseUrl,d.proposedVersion,d.sourceDigest⟩

namespace Request

/-- An update or a publication of the connector that expects the revision. -/
def carries (key : Str) (revision : Nat) : Request → Prop
  | .update u _ => u.connectorKey = key ∧ u.expectedRevision = revision
  | .publish p _ => p.connectorKey = key ∧ p.expectedRevision = revision
  | _ => False

def registers (key : Str) : Request → Prop
  | .register r _ => r.connectorKey = key
  | _ => False

end Request

/-- A draft slot without registrations: unchanged, moved to a higher revision, or emptied. -/
def Follows (old new : Option ConnectorDraft) : Prop :=
  new = old ∨ (∃ d e, old = some d ∧ new = some e ∧ d.revision < e.revision) ∨ new = none

theorem Follows.trans {a b c : Option ConnectorDraft} (first : Follows a b) (second : Follows b c) : Follows a c := by
  rcases second with rfl | ⟨d,e,rfl,rfl,grows⟩ | rfl
  · exact first
  · rcases first with same | ⟨x,y,rfl,same,before⟩ | empty
    · exact Or.inr (Or.inl ⟨d,e,same.symm,rfl,grows⟩)
    · cases same
      exact Or.inr (Or.inl ⟨x,e,rfl,rfl,before.trans grows⟩)
    · cases empty
  · exact Or.inr (Or.inr rfl)

theorem Follows.same_revision {read found : ConnectorDraft} (follows : Follows (some read) (some found))
    (revision : found.revision = read.revision) : found = read := by
  rcases follows with same | ⟨d,e,old,new,grows⟩ | empty
  · exact Option.some.inj same
  · cases old
    cases new
    omega
  · cases empty

section Runs

variable [Pydantic] [Unicode] (setting : Setting)

/-- A call other than a registration of the connector. -/
theorem run_follows {call : Call} {db next : Database} {key : Str} (done : call.run setting db = .ok next)
    (other : ¬ call.request.registers key) : Follows (storedDraft db key) (storedDraft next key) := by
  obtain ⟨request,now⟩ := call
  cases request with
  | register r admitted =>
    obtain ⟨⟨_,d⟩,run,image⟩ := map_eq_ok.mp done
    cases image
    obtain ⟨_,_,_,_,_,_,_,_,_,_,_,_,_,rfl⟩ := (registerConnector_eq_ok run).exists_analysis
    rw [storedDraft_putConnector,if_neg (fun same => other same.symm)]
    exact Or.inl rfl
  | update u admitted =>
    obtain ⟨⟨_,d⟩,run,image⟩ := map_eq_ok.mp done
    cases image
    obtain ⟨c,found,revised,connector,draft,_,_,bumped,_,_,rfl,rfl⟩ := (updateReview_eq_ok run).exists_draft
    rw [storedDraft_putConnector]
    split
    next same =>
      subst same
      have before : storedDraft db u.connectorKey = some found := by simp [storedDraft,connector,draft]
      exact Or.inr (Or.inl ⟨found,_,before,rfl,by simp [bumped]⟩)
    next => exact Or.inl rfl
  | publish p admitted =>
    obtain ⟨⟨_,row⟩,run,image⟩ := map_eq_ok.mp done
    cases image
    obtain ⟨_,_,_,_,_,_,_,_,_,_,rfl⟩ := (publishDraft_eq_ok setting.engine run).exists_draft
    rw [storedDraft_putConnector]
    split
    next => exact Or.inr (Or.inr rfl)
    next => exact Or.inl rfl
  | disable connectorKey version reason =>
    obtain ⟨⟨_,row⟩,run,image⟩ := map_eq_ok.mp done
    cases image
    rcases disableVersion_eq_ok run with rfl | ⟨c,_,connector,_,_,rfl⟩
    · exact Or.inl rfl
    · rw [storedDraft_putConnector]
      split
      next same =>
        subst same
        exact Or.inl (by simp [storedDraft,connector,Connector.putVersion])
      next => exact Or.inl rfl
  | createDeployment deploymentKey displayName description admitted =>
    obtain ⟨⟨_,d⟩,run,image⟩ := map_eq_ok.mp done
    cases image
    obtain ⟨_,rfl⟩ := createDeployment_eq_ok run
    exact Or.inl rfl
  | createSnapshot deploymentKey selections createdBy signingKey =>
    obtain ⟨⟨_,row⟩,run,image⟩ := map_eq_ok.mp done
    cases image
    obtain ⟨_,_,_,_,_,_,_,_,_,_,_,_,_,_,_,rfl⟩ := (createSnapshot_eq_ok run).exists_document
    exact Or.inl rfl

/-- No registration of the connector is accepted during the calls. -/
def Quiet (key : Str) (db : Database) (calls : List Call) : Prop :=
  ∀ front call back, calls = front ++ call::back → call.request.registers key →
    ¬ call.accepted setting (runCalls setting db front)

theorem runCalls_follows {key : Str} {db : Database} {calls : List Call} (quiet : Quiet setting key db calls) :
    Follows (storedDraft db key) (storedDraft (runCalls setting db calls) key) := by
  induction calls generalizing db with
  | nil => exact Or.inl rfl
  | cons call rest ih =>
    have tail : Quiet setting key (call.after setting db) rest := by
      intro front other back split
      exact quiet (call::front) other back (by simp [split])
    apply Follows.trans _ (ih tail)
    unfold Call.after
    split
    next next done =>
      apply run_follows setting done
      intro registers
      exact quiet [] call rest rfl registers ⟨next,done⟩
    next => exact Or.inl rfl

/-- An accepted call that carries a revision acts on a draft at that revision. -/
theorem carried_revision {call : Call} {db : Database} {key : Str} {revision : Nat}
    (carries : call.request.carries key revision) (accepted : call.accepted setting db) :
    ∃ found, storedDraft db key = some found ∧ found.revision = revision := by
  obtain ⟨next,done⟩ := accepted
  obtain ⟨request,now⟩ := call
  cases request with
  | update u admitted =>
    obtain ⟨rfl,rfl⟩ := carries
    obtain ⟨⟨_,d⟩,run,_⟩ := map_eq_ok.mp done
    obtain ⟨c,found,_,connector,draft,expected,_⟩ := (updateReview_eq_ok run).exists_draft
    exact ⟨found,by simp [storedDraft,connector,draft],expected.symm⟩
  | publish p admitted =>
    obtain ⟨rfl,rfl⟩ := carries
    obtain ⟨⟨_,row⟩,run,_⟩ := map_eq_ok.mp done
    obtain ⟨c,_,found,_,_,connector,draft,prepared,_⟩ := (publishDraft_eq_ok setting.engine run).exists_draft
    have current := (preparedVersion_eq_ok setting.engine prepared).current
    exact ⟨found,by simp [storedDraft,connector,draft],current.symm⟩
  | register => cases carries
  | disable => cases carries
  | createDeployment => cases carries
  | createSnapshot => cases carries

/-- A read of the connector's draft after `front`, and an accepted call after `middle` that
carries the revision it showed. -/
structure ReadThenUse (key : Str) (calls front middle : List Call) (read : ConnectorDraft) : Prop where
  exists_call : ∃ call back, calls = front ++ (middle ++ call::back) ∧ call.request.carries key read.revision ∧
    call.accepted setting (runCalls setting (runCalls setting Database.empty front) middle)
  read : getDraft (runCalls setting Database.empty front) key = .ok read

/-- In the run, an accepted update or publication acts on the content that every earlier
read showed under the revision it carries. -/
def RevisionIdentifies (key : Str) (calls : List Call) : Prop :=
  ∀ front middle read, ReadThenUse setting key calls front middle read →
    ∃ found, getDraft (runCalls setting Database.empty (front ++ middle)) key = .ok found ∧
      found.content = read.content

/-- In the run, no registration of the connector is accepted between a read and the
accepted use of the revision it showed. -/
def NoReissue (key : Str) (calls : List Call) : Prop :=
  ∀ front middle read, ReadThenUse setting key calls front middle read →
    Quiet setting key (runCalls setting Database.empty front) middle

/-- Without a registration in between, the revision identifies the draft. -/
theorem revision_identifies {key : Str} {calls : List Call} (fresh : NoReissue setting key calls) :
    RevisionIdentifies setting key calls := by
  intro front middle read used
  have follows := runCalls_follows setting (fresh front middle read used)
  obtain ⟨⟨call,back,_,carries,accepted⟩,shown⟩ := used
  obtain ⟨found,stored,revision⟩ := carried_revision setting carries accepted
  rw [getDraft_eq_ok.mp shown,stored] at follows
  have same := follows.same_revision revision
  rw [runCalls_append]
  exact ⟨found,getDraft_eq_ok.mpr stored,congrArg ConnectorDraft.content same⟩

/-- A connector that is registered by the first call only. -/
theorem noReissue_of_registered_once {key : Str} {first : Call} {rest : List Call}
    (once : ∀ call ∈ rest, ¬ call.request.registers key) : NoReissue setting key (first::rest) := by
  intro front middle read used before call after split registers _
  obtain ⟨⟨last,back,calls,_,_⟩,shown⟩ := used
  cases front with
  | nil =>
    have absent : storedDraft Database.empty key = none := rfl
    rw [runCalls_nil,getDraft_eq_ok,absent] at shown
    cases shown
  | cons head tail =>
    obtain ⟨rfl,rest⟩ := List.cons.inj calls
    apply once call _ registers
    rw [rest,split]
    simp

section Drafts

variable {parsers : Parsers} {db next : Database} {d : ConnectorDraft}

/-- The draft a registration returns is the one that is read afterwards. -/
theorem getDraft_registered {r : Registration} {now : Timestamp}
    (done : registerConnector parsers db r now = .ok (next,d)) : getDraft next r.connectorKey = .ok d := by
  obtain ⟨_,_,_,_,_,_,_,_,_,_,_,_,_,rfl⟩ := (registerConnector_eq_ok done).exists_analysis
  rw [getDraft_eq_ok,storedDraft_putConnector,if_pos rfl]

omit [Pydantic] in
theorem getDraft_updated {u : DraftUpdate} (done : updateReview db u = .ok (next,d)) :
    getDraft next u.connectorKey = .ok d := by
  obtain ⟨_,_,_,_,_,_,_,_,_,_,_,rfl⟩ := (updateReview_eq_ok done).exists_draft
  rw [getDraft_eq_ok,storedDraft_putConnector,if_pos rfl]

end Drafts

end Runs

section Desk

local instance deskTables : Unicode := Unicode.asciiOnly
local instance deskFields : Pydantic := Pydantic.exact

/-- A description of one operation, on a server of the given origin. -/
def deskDocument (origin : Str) : Value :=
  .dict [("openapi",.str "3.0.0"),
    ("paths",.dict [("/health",.dict [("get",.dict [("summary",.str "Health")])])]),
    ("servers",.list [.dict [("url",.str origin)]])]

def deskText (origin : Str) : Str :=
  Str.lit ("\x7b\"openapi\":\"3.0.0\",\"paths\":\x7b\"/health\":\x7b\"get\":\x7b\"summary\":\"Health\"\x7d\x7d\x7d," ++
    "\"servers\":[\x7b\"url\":\"") ++ origin ++ Str.lit "\"\x7d]\x7d"

def oldOrigin : Str := "http://old.test"

def newOrigin : Str := "http://new.test"

/-- A JSON parser's results on the two texts. -/
def deskParsers : Parsers where
  json text := if text = deskText oldOrigin then .ok ⟨deskDocument oldOrigin,by decide⟩
    else if text = deskText newOrigin then .ok ⟨deskDocument newOrigin,by decide⟩
    else .error (invalidDocument "not read here")
  yaml _ := .error (invalidDocument "not read here")

def deskScheme : Ed25519 := ⟨id,fun _ _ => List.replicate signatureBytes 0,fun _ _ _ => true⟩

def desk : Setting := ⟨deskParsers,SchemaSubset.engine,deskScheme⟩

def deskKey : Str := "desk"

def deskTime : Timestamp := ⟨2026,8,6,1,0,0,by decide,by decide⟩

def deskRegistration (origin : Str) : Registration :=
  { connectorKey := deskKey, sourceBytes := Utf8.bytes (deskText origin), sourceFilename := "openapi.json" }

def deskPublication : Publication := { connectorKey := deskKey, expectedRevision := 1, publishedBy := "admin" }

def deskRegister (origin : Str) (admitted : (deskRegistration origin).Accepts) : Call :=
  ⟨.register (deskRegistration origin) admitted,deskTime⟩

def deskRegisterOld : Call := deskRegister oldOrigin (by decide)

def deskRegisterNew : Call := deskRegister newOrigin (by decide)

def deskPublish : Call := ⟨.publish deskPublication (by decide),deskTime⟩

theorem revision_identifies_desk : RevisionIdentifies desk deskKey [deskRegisterOld,deskPublish] :=
  revision_identifies desk (noReissue_of_registered_once desk (by simp [deskPublish,Request.registers]))

/-- Two registrations of one connector, then a publication: the drafts read and the row. -/
def reissue : Except PyExc (ConnectorDraft × ConnectorDraft × PublishedVersion) := do
  let (first,read) ← registerConnector deskParsers Database.empty (deskRegistration oldOrigin) deskTime
  let (second,found) ← registerConnector deskParsers first (deskRegistration newOrigin) deskTime
  let (_,row) ← publishDraft desk.engine second deskPublication deskTime
  return (read,found,row)

def reissueChecked : PLift (okWith (fun run : ConnectorDraft × ConnectorDraft × PublishedVersion =>
    run.1.revision == 1 && run.1.baseUrl == some oldOrigin && run.2.1.baseUrl == some newOrigin) reissue = true) :=
  ⟨by decide +kernel⟩

/-- A second registration starts its draft at revision 1 again, so a client that read the
first one publishes the second. -/
theorem revision_reissued : ¬ RevisionIdentifies desk deskKey [deskRegisterOld,deskRegisterNew,deskPublish] := by
  intro identifies
  obtain ⟨⟨read,found,row⟩,ran,checked⟩ := exists_of_okWith reissueChecked.down
  unfold reissue at ran
  obtain ⟨⟨first,read⟩,registered,ran⟩ := bind_eq_ok.mp ran
  obtain ⟨⟨second,found⟩,again,ran⟩ := bind_eq_ok.mp ran
  obtain ⟨⟨third,row⟩,published,ran⟩ := bind_eq_ok.mp ran
  cases ran
  rw [Bool.and_eq_true,Bool.and_eq_true,beq_iff_eq,beq_iff_eq,beq_iff_eq] at checked
  obtain ⟨⟨revision,old⟩,new⟩ := checked
  have afterFirst : runCalls desk Database.empty [deskRegisterOld] = first := by
    simp only [runCalls_cons,runCalls_nil,Call.after,Call.run,deskRegisterOld,deskRegister]
    rw [show registerConnector desk.parsers Database.empty (deskRegistration oldOrigin) deskTime = _ from registered]
    rfl
  have afterSecond : runCalls desk first [deskRegisterNew] = second := by
    simp only [runCalls_cons,runCalls_nil,Call.after,Call.run,deskRegisterNew,deskRegister]
    rw [show registerConnector desk.parsers first (deskRegistration newOrigin) deskTime = _ from again]
    rfl
  have shown : getDraft first deskKey = .ok read := getDraft_registered registered
  have present : getDraft second deskKey = .ok found := getDraft_registered again
  have used : ReadThenUse desk deskKey [deskRegisterOld,deskRegisterNew,deskPublish] [deskRegisterOld]
      [deskRegisterNew] read := by
    refine ⟨⟨deskPublish,[],rfl,⟨rfl,revision.symm⟩,third,?_⟩,by rw [afterFirst]; exact shown⟩
    rw [afterFirst,afterSecond]
    exact map_eq_ok.mpr ⟨(third,row),published,rfl⟩
  obtain ⟨other,stored,same⟩ := identifies _ _ _ used
  rw [runCalls_append,afterFirst,afterSecond,present] at stored
  cases stored
  have url : found.baseUrl = read.baseUrl := congrArg DraftContent.baseUrl same
  rw [old,new] at url
  exact absurd url (by decide)

end Desk

end ToolLayer.ControlPlane
