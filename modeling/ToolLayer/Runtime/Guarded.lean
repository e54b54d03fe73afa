import ToolLayer.Runtime.Orchestrator

/-! Every call a request makes is guarded by one snapshot, whatever the provider answers
and whatever other requests do to the store meanwhile. -/
namespace ToolLayer.Runtime
open Python Kit Kit.Result Kit.Program Policy

variable [Pydantic] [Unicode] [AddressRegistry]

/-- The snapshot a request acquires in its first step on the store. -/
def acquired (world : Surroundings) (request : Request) (m : Machine) : Except PyExc LoadedSnapshot :=
  ((m.interfere world).store.ensureFresh world request.get request.now request.later).1

/-- What a request that was sent went through, all of it in the one snapshot. -/
structure Guarded (engine : SchemaEngine) (executor : ToolExecutor) (request : Request) (snapshot : LoadedSnapshot)
    (toolName : Str) (arguments : Dict) (prepared : PreparedRequest) (b : BoundTool) : Prop where
  resolved : snapshot.resolve toolName = .ok b
  discovered : b ∈ discoverIn snapshot request.caller
  confirmed : b.tool.policy.requiresConfirmation = true → request.confirmed = true
  accepted : validateArguments engine b.tool (.dict arguments) = .ok arguments
  built : prepareRequest b.tool arguments b.baseUrl = .ok prepared
  permitted : executor.policy.checkMethod prepared.method.upper = .ok ()
  allowed : ∃ destination, executor.policy.check prepared.url executor.resolver = .ok destination

section Steps

variable {engine : SchemaEngine} {executor : ToolExecutor} {world : Surroundings} {request : Request}
  {snapshot : LoadedSnapshot} {toolName : Str} {b : BoundTool} {arguments : Dict}

omit [AddressRegistry] in
@[simp] theorem sent_send (m : Machine) (requests : List PreparedRequest) : (m.send requests).sent = m.sent ++ requests :=
  rfl

omit [AddressRegistry] in
@[simp] theorem sent_interfere (m : Machine) : (m.interfere world).sent = m.sent := by
  unfold Machine.interfere
  split <;> rfl

omit [AddressRegistry] in
theorem validateArguments_dict {tool : ToolDefinition} {proposed : Value} {validated : Dict}
    (done : validateArguments engine tool proposed = .ok validated) : proposed = .dict validated := by
  unfold validateArguments at done
  split at done
  next members =>
    obtain ⟨_,_,done⟩ := bind_eq_ok.mp done
    obtain ⟨_,_,done⟩ := bind_eq_ok.mp done
    obtain ⟨_,done⟩ := refuse_bind_eq_ok.mp done
    obtain ⟨errors,_,done⟩ := bind_eq_ok.mp done
    split at done
    next =>
      cases done
      rfl
    next => cases done
  next => cases done

omit [AddressRegistry] in
/-- A tool the caller may use is one the caller could have discovered. -/
theorem mem_discoverIn (resolved : snapshot.resolve toolName = .ok b) (may : authorize b request.caller = .ok ()) :
    b ∈ discoverIn snapshot request.caller := by
  unfold LoadedSnapshot.resolve at resolved
  split at resolved
  next found present =>
    cases resolved
    refine List.mem_filter.mpr ⟨List.mem_of_find?_eq_some present,?_⟩
    simpa [authorize] using may
  next => cases resolved

omit [Unicode] [AddressRegistry] in
theorem method_of_prepareRequest {tool : ToolDefinition} {baseUrl : Str} {prepared : PreparedRequest}
    (built : prepareRequest tool arguments baseUrl = .ok prepared) : prepared.method = tool.operation.method := by
  obtain ⟨_,_,built⟩ := bind_eq_ok.mp built
  obtain ⟨_,built⟩ := refuse_bind_eq_ok.mp built
  obtain ⟨⟨_,_⟩,_,built⟩ := bind_eq_ok.mp built
  obtain ⟨_,_,built⟩ := bind_eq_ok.mp built
  cases built
  rfl

/-- What passed the steps before execution is guarded in every request it leads to. -/
theorem guarded_of_prepare {prepared : PreparedRequest} (resolved : snapshot.resolve toolName = .ok b)
    (may : authorize b request.caller = .ok ()) (confirmed : confirmationRequired b request.confirmed = .ok ())
    (done : executor.prepare engine b.tool (.dict arguments) b.baseUrl = .ok prepared) :
    Guarded engine executor request snapshot toolName arguments prepared b := by
  obtain ⟨permitted,⟨validated,again,built⟩,allowed⟩ := prepare_eq_ok.mp done
  cases validateArguments_dict again
  refine ⟨resolved,mem_discoverIn resolved may,?_,again,built,?_,allowed⟩
  · intro required
    simpa [confirmationRequired,required] using confirmed
  · rw [method_of_prepareRequest built]
    exact permitted

end Steps

section Requests

variable (world : Surroundings) (engine : SchemaEngine) (orchestrator : Orchestrator) (request : Request)
  (may : LoadedSnapshot → Str → Prop) (m : Machine)

/-- What the state says of the calls of the request that began in `m`: none was made, or one
that is guarded by the acquired snapshot. -/
def AtMostOneGuarded (s : Machine) : Prop :=
  s.sent = m.sent ∨ ∃ snapshot toolName arguments prepared b, acquired world request m = .ok snapshot ∧
    may snapshot toolName ∧ Guarded engine orchestrator.executor request snapshot toolName arguments prepared b ∧
    s.sent = m.sent ++ [prepared]

/-- The outcome reports the acquired snapshot. -/
def Reports (outcome : OrchestrationOutcome) : Prop :=
  ∃ snapshot, acquired world request m = .ok snapshot ∧ outcome.snapshotRevision = snapshot.revision ∧
    outcome.snapshotId = snapshot.snapshotId

variable {world engine orchestrator request may m}

theorem AtMostOneGuarded.interfere {s : Machine} (guarded : AtMostOneGuarded world engine orchestrator request may m s) :
    AtMostOneGuarded world engine orchestrator request may m (s.interfere world) := by
  unfold AtMostOneGuarded at guarded ⊢
  rwa [sent_interfere]

omit [AddressRegistry] in
theorem ensureFresh_acquires : Triple (fun s => s = m.interfere world) (ensureFresh world request)
    (fun snapshot s => acquired world request m = .ok snapshot ∧ s.sent = m.sent) (fun s => s.sent = m.sent) := by
  rintro s rfl
  unfold ensureFresh acquired
  cases ended : (m.interfere world).store.ensureFresh world request.get request.now request.later with
  | mk result store =>
    cases result with
    | ok snapshot => exact ⟨rfl,sent_interfere m⟩
    | error e => exact sent_interfere m

theorem attempt_guarded {snapshot : LoadedSnapshot} {toolName : Str} {b : BoundTool} {arguments : Dict} {origin : Origin}
    (got : acquired world request m = .ok snapshot) (named : may snapshot toolName)
    (resolved : snapshot.resolve toolName = .ok b) (permits : authorize b request.caller = .ok ())
    (confirmed : confirmationRequired b request.confirmed = .ok ()) :
    Triple (fun s => s.sent = m.sent)
      (attempt (orchestrator.executor.execute engine b.tool (.dict arguments) b.baseUrl origin request.started
        request.finished))
      (fun _ s => AtMostOneGuarded world engine orchestrator request may m s)
      (AtMostOneGuarded world engine orchestrator request may m) := by
  intro s unsent
  unfold attempt
  rcases execute_cases orchestrator.executor engine b.tool (.dict arguments) b.baseUrl origin request.started
    request.finished with ⟨e,refused⟩ | ⟨prepared,outcome,done,sent⟩
  · rw [refused]
    exact Or.inl (by rw [sent_send,unsent,List.append_nil])
  · rw [sent]
    have guarded : AtMostOneGuarded world engine orchestrator request may m (s.send [prepared]) :=
      Or.inr ⟨snapshot,toolName,arguments,prepared,b,got,named,guarded_of_prepare resolved permits confirmed done,
        by rw [sent_send,unsent]⟩
    cases outcome with
    | ok result => exact guarded
    | error e => exact guarded

omit [AddressRegistry] in
/-- Others refresh the store and send nothing for this request. -/
theorem unsent_yield {A : Type} {f : Unit → Turn A} {post : A → Machine → Prop} {fail : Machine → Prop}
    (next : Triple (fun s => s.sent = m.sent) (f ()) post fail) :
    Triple (fun s => s.sent = m.sent) (yield world >>= f) post fail := by
  refine triple_update_bind (fun s => s.sent = m.sent) ?_ next
  intro s unsent
  rwa [sent_interfere]

omit [AddressRegistry] in
/-- The first two steps on the store: afterwards the acquired snapshot is at hand. -/
theorem acquire_bind {A : Type} {f : LoadedSnapshot → Turn A} {post : A → Machine → Prop} {fail : Machine → Prop}
    (raises : ∀ s : Machine, s.sent = m.sent → fail s)
    (next : ∀ snapshot, acquired world request m = .ok snapshot → Triple (fun s => s.sent = m.sent) (f snapshot) post fail) :
    Triple (fun s => s = m) (yield world >>= fun _ => ensureFresh world request >>= f) post fail := by
  refine triple_update_bind (fun t => t = m.interfere world) (fun s same => by rw [same]) ?_
  refine triple_bind (triple_mono (fun _ => id) (fun _ _ => id) raises ensureFresh_acquires) (fun snapshot => ?_)
  rintro s ⟨got,unsent⟩
  exact next snapshot got s unsent

/-- Execution, the response and the outcome: the last steps of both entry points. -/
theorem finish_triple {snapshot : LoadedSnapshot} {toolName : Str} {b : BoundTool} {arguments : Dict} {origin : Origin}
    {respond : ToolExecutionResult → Except PyExc Str} {outcome : ToolExecutionResult → Str → OrchestrationOutcome}
    (got : acquired world request m = .ok snapshot) (named : may snapshot toolName)
    (resolved : snapshot.resolve toolName = .ok b) (permits : authorize b request.caller = .ok ())
    (confirmed : confirmationRequired b request.confirmed = .ok ())
    (reports : ∀ result message, Reports world request m (outcome result message)) :
    Triple (fun s => s.sent = m.sent)
      (do
        let result ← attempt (orchestrator.executor.execute engine b.tool (.dict arguments) b.baseUrl origin
          request.started request.finished)
        yield world
        let message ← Program.lift (respond result)
        return outcome result message)
      (fun outcome s => AtMostOneGuarded world engine orchestrator request may m s ∧ Reports world request m outcome)
      (AtMostOneGuarded world engine orchestrator request may m) := by
  refine triple_bind (attempt_guarded got named resolved permits confirmed) (fun result => ?_)
  refine triple_update_bind _ (fun s guarded => guarded.interfere) ?_
  refine triple_lift_bind (fun s guarded => guarded) (fun message _ => ?_)
  exact triple_pure (fun s guarded => ⟨guarded,reports result message⟩)

theorem executeTool_triple (toolName : Str) (arguments : Value) :
    Triple (fun s => s = m) (executeTool world engine orchestrator request toolName arguments)
      (fun outcome s => AtMostOneGuarded world engine orchestrator request (fun _ name => name = toolName) m s ∧
        Reports world request m outcome)
      (AtMostOneGuarded world engine orchestrator request (fun _ name => name = toolName) m) := by
  have silent : ∀ s : Machine, s.sent = m.sent →
      AtMostOneGuarded world engine orchestrator request (fun _ name => name = toolName) m s := fun s => Or.inl
  unfold executeTool
  refine acquire_bind silent (fun snapshot got => ?_)
  refine unsent_yield ?_
  refine triple_lift_bind silent (fun b resolved => ?_)
  refine triple_lift_bind silent (fun validated _ => ?_)
  refine unsent_yield ?_
  refine triple_lift_bind silent (fun _ permits => ?_)
  refine triple_lift_bind silent (fun _ confirmed => ?_)
  refine unsent_yield ?_
  exact finish_triple got rfl resolved permits confirmed (fun _ _ => ⟨snapshot,got,rfl,rfl⟩)

/-- The tool the provider selected for the text of the request, among those it was shown. -/
def SelectedBy (provider : LLMProvider) (request : Request) (utterance : Str) (snapshot : LoadedSnapshot) (toolName : Str) :
    Prop :=
  ∃ text selection, utteranceText utterance = .ok text ∧
    provider.selectTool text ((discoverIn snapshot request.caller).map BoundTool.tool) = .ok (some selection) ∧
    selection.toolName = toolName

theorem handle_triple (utterance : Str) (dryRun : Bool) :
    Triple (fun s => s = m) (handle world engine orchestrator request utterance dryRun)
      (fun outcome s => (AtMostOneGuarded world engine orchestrator request
          (SelectedBy orchestrator.provider request utterance) m s ∧ Reports world request m outcome) ∧
        (dryRun = true → s.sent = m.sent))
      (fun s => AtMostOneGuarded world engine orchestrator request
          (SelectedBy orchestrator.provider request utterance) m s ∧ (dryRun = true → s.sent = m.sent)) := by
  have silent : ∀ s : Machine, s.sent = m.sent → AtMostOneGuarded world engine orchestrator request
      (SelectedBy orchestrator.provider request utterance) m s ∧ (dryRun = true → s.sent = m.sent) :=
    fun s unsent => ⟨Or.inl unsent,fun _ => unsent⟩
  have atStart : ∀ s : Machine, s = m → AtMostOneGuarded world engine orchestrator request
      (SelectedBy orchestrator.provider request utterance) m s ∧ (dryRun = true → s.sent = m.sent) :=
    fun s same => silent s (by rw [same])
  unfold handle
  refine triple_lift_bind atStart (fun text spoken => ?_)
  refine acquire_bind silent (fun snapshot got => ?_)
  refine unsent_yield ?_
  refine triple_lift_bind silent (fun _ _ => ?_)
  refine triple_lift_bind silent (fun selected answered => ?_)
  refine triple_lift_bind silent (fun selection picked => ?_)
  refine unsent_yield ?_
  refine triple_lift_bind silent (fun b resolved => ?_)
  refine triple_lift_bind silent (fun proposal _ => ?_)
  refine triple_lift_bind silent (fun _ _ => ?_)
  refine unsent_yield ?_
  refine triple_lift_bind silent (fun validated _ => ?_)
  refine triple_lift_bind silent (fun _ permits => ?_)
  refine triple_lift_bind silent (fun _ confirmed => ?_)
  refine unsent_yield ?_
  have named : SelectedBy orchestrator.provider request utterance snapshot selection.toolName := by
    have some_ : selected = some selection := by
      unfold chosen at picked
      split at picked
      next s =>
        cases picked
        rfl
      next => cases picked
    exact ⟨text,selection,spoken,some_ ▸ answered,rfl⟩
  cases dryRun with
  | true =>
    rw [if_pos rfl]
    refine triple_lift_bind silent (fun prepared _ => ?_)
    exact triple_pure (fun s unsent => ⟨⟨Or.inl unsent,⟨snapshot,got,rfl,rfl⟩⟩,fun _ => unsent⟩)
  | false =>
    rw [if_neg (by decide)]
    refine triple_mono (fun _ => id) ?_ ?_
      (finish_triple got named resolved permits confirmed (fun _ _ => ⟨snapshot,got,rfl,rfl⟩))
    · exact fun _ _ guarded => ⟨guarded,fun dry => by cases dry⟩
    · exact fun _ guarded => ⟨guarded,fun dry => by cases dry⟩

/-- One request makes at most one call, guarded by the snapshot it acquired at its start,
whatever the provider proposes and however the store is refreshed between its steps. -/
theorem request_guarded (world : Surroundings) (engine : SchemaEngine) (orchestrator : Orchestrator) (request : Request)
    (m : Machine) :
    (∀ toolName arguments,
      AtMostOneGuarded world engine orchestrator request (fun _ name => name = toolName) m
        (executeTool world engine orchestrator request toolName arguments m).2 ∧
      ∀ outcome, (executeTool world engine orchestrator request toolName arguments m).1 = .ok outcome →
        Reports world request m outcome) ∧
    ∀ utterance dryRun,
      AtMostOneGuarded world engine orchestrator request (SelectedBy orchestrator.provider request utterance) m
        (handle world engine orchestrator request utterance dryRun m).2 ∧
      (∀ outcome, (handle world engine orchestrator request utterance dryRun m).1 = .ok outcome →
        Reports world request m outcome) ∧
      (dryRun = true → (handle world engine orchestrator request utterance dryRun m).2.sent = m.sent) := by
  constructor
  · intro toolName arguments
    obtain ⟨returned,raised⟩ := (executeTool_triple toolName arguments).run (rfl : m = m)
    cases ended : (executeTool world engine orchestrator request toolName arguments m).1 with
    | ok outcome =>
      refine ⟨(returned outcome ended).1,fun other same => ?_⟩
      cases same
      exact (returned outcome ended).2
    | error e => exact ⟨raised e ended,fun other same => nomatch same⟩
  · intro utterance dryRun
    obtain ⟨returned,raised⟩ := (handle_triple utterance dryRun).run (rfl : m = m)
    cases ended : (handle world engine orchestrator request utterance dryRun m).1 with
    | ok outcome =>
      obtain ⟨⟨guarded,reports⟩,dry⟩ := returned outcome ended
      refine ⟨guarded,fun other same => ?_,dry⟩
      cases same
      exact reports
    | error e =>
      obtain ⟨guarded,dry⟩ := raised e ended
      exact ⟨guarded,fun other same => (nomatch same),dry⟩

end Requests

end ToolLayer.Runtime
