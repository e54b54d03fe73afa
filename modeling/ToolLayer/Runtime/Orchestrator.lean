import ToolLayer.Kit.Program
import ToolLayer.Policy.Authorization
import ToolLayer.Policy.Executor
import ToolLayer.Runtime.Replay

/-! One request to the runtime: one snapshot, a fixed order of steps, and at most one call. -/
namespace ToolLayer.Runtime
open Python Kit Kit.Result Policy

structure ToolSelection where
  toolName : Str
  score : PyFloat
  rationale : Str
  runnerUp : Option Str

structure ArgumentProposal where
  arguments : Dict
  missingRequired : List Str

def ArgumentProposal.complete (proposal : ArgumentProposal) : Bool := proposal.missingRequired.isEmpty

variable [Pydantic] [Unicode]

/-- Any component that proposes: what it answers is up to it. -/
structure LLMProvider where
  selectTool : Str → List ToolDefinition → Except PyExc (Option ToolSelection)
  generateArguments : Str → ToolDefinition → Except PyExc ArgumentProposal
  formatResponse : Str → ToolDefinition → Value → Except PyExc Str

/-- The steps taken so far, each an object with its name and details. -/
abbrev ToolTrace := List Dict

def ToolTrace.withStep (trace : ToolTrace) (step : Str) (detail : Dict) : ToolTrace :=
  trace ++ [(Str.lit "step",.str step) :: detail]

structure OrchestrationOutcome where
  requestId : Str
  snapshotRevision : Int
  snapshotId : Str
  selectedTool : Str
  connectorKey : Str
  connectorVersion : Str
  arguments : Dict
  result : Option ToolExecutionResult
  message : Str
  trace : ToolTrace

/-- The runtime while a request is served. -/
structure Machine where
  store : SnapshotStore
  /-- What other requests do to the store before each of the steps to come. -/
  others : List (List Visit)
  sent : List PreparedRequest

abbrev Turn (A : Type) := Program Machine PyExc A

structure Orchestrator where
  provider : LLMProvider
  executor : ToolExecutor

/-- One request: who asks, under which id (`fresh` if it brings none), and the network and
the clock while it is served. -/
structure Request where
  caller : Option CallerIdentity
  requestId : Option Str
  fresh : Str
  confirmed : Bool
  get : HttpRequest → Answer
  now : Rat
  later : Rat
  started : Rat
  finished : Rat

def Request.id (request : Request) : Str :=
  match request.requestId with
  | some (c::rest) => c::rest
  | _ => request.fresh

variable (world : Surroundings)

def Machine.interfere (m : Machine) : Machine :=
  match m.others with
  | [] => m
  | visits::rest => { m with store := runVisits world m.store visits,others := rest }

/-- Between two steps others may refresh the store. -/
def yield : Turn Unit := Program.update (Machine.interfere world)

def ensureFresh (request : Request) : Turn LoadedSnapshot := fun m =>
  let (result,store) := m.store.ensureFresh world request.get request.now request.later
  (result,{ m with store := store })

omit [Pydantic] [Unicode] in
def Machine.send (m : Machine) (requests : List PreparedRequest) : Machine := { m with sent := m.sent ++ requests }

omit [Pydantic] [Unicode] in
/-- An attempt of the executor, with what it sent on record. -/
def attempt {A : Type} (x : Attempt A) : Turn A := fun m => (x.outcome,m.send x.sent)

/-- Whether the caller may use the tool, by the policy the snapshot carries. -/
def permits (caller : Option CallerIdentity) (b : BoundTool) : Bool :=
  (authorizeStoredPolicy b.tool.policy.dump caller).allowed

/-- `discover_in`. -/
def discoverIn (snapshot : LoadedSnapshot) (caller : Option CallerIdentity) : List BoundTool :=
  snapshot.toolsByName.tools.filter (permits caller)

/-- `_authorize`. -/
def authorize (b : BoundTool) (caller : Option CallerIdentity) : Except PyExc Unit :=
  refuse (!permits caller b) (toolLayerError .roleNotPermitted
    "this caller is not permitted to use the requested tool")

def confirmationRequired (b : BoundTool) (confirmed : Bool) : Except PyExc Unit :=
  refuse (b.tool.policy.requiresConfirmation && !confirmed) (toolLayerError .confirmationRequired
    "this tool requires explicit confirmation before it can be executed")

omit [Pydantic] [Unicode] in
def sortedNames (arguments : Dict) : Value :=
  .list (((Assoc.keys arguments).insertionSort (fun a b => Str.le a b = true)).map .str)

def BoundTool.origin (b : BoundTool) (requestId : Str) : Origin := ⟨b.connectorKey,b.connectorVersion,some requestId⟩

variable [AddressRegistry] (engine : SchemaEngine) (orchestrator : Orchestrator)

def outcomeOf (request : Request) (snapshot : LoadedSnapshot) (b : BoundTool) (arguments : Dict)
    (result : Option ToolExecutionResult) (message : Str) (trace : ToolTrace) : OrchestrationOutcome :=
  ⟨request.id,snapshot.revision,snapshot.snapshotId,b.toolName,b.connectorKey,b.connectorVersion,arguments,result,
    message,trace⟩

def executedStep (result : ToolExecutionResult) : Dict :=
  [("http_status",.int result.httpStatus),("duration_ms",.int result.durationMs)]

def executeTool (request : Request) (toolName : Str) (arguments : Value) : Turn OrchestrationOutcome := do
  yield world
  let snapshot ← ensureFresh world request
  let trace := ToolTrace.withStep [] "snapshot_loaded"
    [("revision",.int snapshot.revision),("snapshot_id",.str snapshot.snapshotId)]
  yield world
  let b ← Program.lift (snapshot.resolve toolName)
  let trace := trace.withStep "tool_resolved"
    [("tool",.str b.toolName),("connector",.str b.connectorKey),("version",.str b.connectorVersion)]
  let validated ← Program.lift (validateArguments engine b.tool arguments)
  let trace := trace.withStep "arguments_validated" [("argument_names",sortedNames validated)]
  yield world
  Program.lift (authorize b request.caller)
  let trace := trace.withStep "policy_evaluated" [("effect",.str b.tool.policy.effectClass.text)]
  Program.lift (confirmationRequired b request.confirmed)
  yield world
  let result ← attempt (orchestrator.executor.execute engine b.tool (.dict validated) b.baseUrl (b.origin request.id)
    request.started request.finished)
  let trace := trace.withStep "executed" (executedStep result)
  yield world
  let message ← Program.lift (orchestrator.provider.formatResponse toolName b.tool result.content)
  return (outcomeOf request snapshot b validated (some result) message trace)

def maxUtterance : Nat := 4000

/-- The text of a request, without the white space around it. -/
def utteranceText (utterance : Str) : Except PyExc Str := do
  let text := utterance.strip
  refuse text.isEmpty (toolLayerError .invalidRequest "the request text may not be empty" (some "/utterance"))
  refuse (decide (maxUtterance < text.length))
    (toolLayerError .invalidRequest "the request text is too long" (some "/utterance"))
  return text

def noToolSelected (message : Str) : PyExc := toolLayerError .noToolSelected message

def chosen (selection : Option ToolSelection) : Except PyExc ToolSelection :=
  match selection with
  | some s => .ok s
  | none => .error (noToolSelected "the request did not match any available tool closely enough to act on")

def requireComplete (proposal : ArgumentProposal) : Except PyExc Unit :=
  refuse (!proposal.complete) (toolLayerError .argumentValidationFailed
    (Str.lit "the request does not supply every required argument: " ++ Str.join ", " proposal.missingRequired)
    (some "/utterance"))

def handle (request : Request) (utterance : Str) (dryRun : Bool) : Turn OrchestrationOutcome := do
  let text ← Program.lift (utteranceText utterance)
  yield world
  let snapshot ← ensureFresh world request
  let trace := ToolTrace.withStep [] "snapshot_loaded" [("revision",.int snapshot.revision),
    ("snapshot_id",.str snapshot.snapshotId),("digest",.str snapshot.snapshot.snapshotDigest)]
  yield world
  let available := discoverIn snapshot request.caller
  let trace := trace.withStep "tools_discovered" [("visible",.list (available.map (fun b => .str b.toolName))),
    ("hidden",.int (snapshot.toolsByName.tools.length - available.length))]
  Program.lift (refuse available.isEmpty
    (noToolSelected "no tool in this deployment is available to this caller"))
  let selected ← Program.lift (orchestrator.provider.selectTool text (available.map BoundTool.tool))
  let selection ← Program.lift (chosen selected)
  let trace := trace.withStep "tool_selected" [("tool",.str selection.toolName),("score",.float selection.score),
    ("rationale",.str selection.rationale),("runner_up",textOrNull selection.runnerUp)]
  yield world
  let b ← Program.lift (snapshot.resolve selection.toolName)
  let proposal ← Program.lift (orchestrator.provider.generateArguments text b.tool)
  Program.lift (requireComplete proposal)
  let trace := trace.withStep "arguments_generated" [("argument_names",sortedNames proposal.arguments)]
  yield world
  let validated ← Program.lift (validateArguments engine b.tool (.dict proposal.arguments))
  let trace := trace.withStep "arguments_validated" [("arguments",.dict validated)]
  Program.lift (authorize b request.caller)
  let trace := trace.withStep "policy_evaluated" [("effect",.str b.tool.policy.effectClass.text),
    ("requires_confirmation",.bool b.tool.policy.requiresConfirmation)]
  Program.lift (confirmationRequired b request.confirmed)
  yield world
  if dryRun then
    let prepared ← Program.lift (orchestrator.executor.prepare engine b.tool (.dict validated) b.baseUrl)
    return (outcomeOf request snapshot b validated none
      (prepared.method.upper ++ Str.lit " " ++ prepared.path ++ Str.lit " (not executed)")
      (trace.withStep "dry_run" [("method",.str prepared.method.upper),("path",.str prepared.path)]))
  else
    let result ← attempt (orchestrator.executor.execute engine b.tool (.dict validated) b.baseUrl (b.origin request.id)
      request.started request.finished)
    let trace := trace.withStep "executed" (executedStep result)
    yield world
    let message ← Program.lift (orchestrator.provider.formatResponse text b.tool result.content)
    let trace := trace.withStep "response_formatted" [("untrusted_content",.bool true)]
    return (outcomeOf request snapshot b validated (some result) message trace)

end ToolLayer.Runtime
