import Mathlib.Algebra.Order.Floor.Ring
import Mathlib.Data.Rat.Floor
import ToolLayer.Contracts.SchemaSubset
import ToolLayer.Policy.Arguments
import ToolLayer.Policy.Destinations

/-! The boundary every outbound call goes through: what is checked before a request is
sent, and what is made of the response. -/
namespace ToolLayer
open Python Kit Kit.Result

inductive ExecutionStatus where
  | succeeded
  | upstreamError
  deriving DecidableEq

namespace ToolExecutionResult

def Accepts (toolName connectorKey connectorVersion : Str) (httpStatus durationMs : Int) (requestId : Option Str) :
    Prop :=
  isToolName toolName = true ∧ resourceKey connectorKey = true ∧ semanticVersion connectorVersion = true ∧
    100 ≤ httpStatus ∧ httpStatus ≤ 599 ∧ 0 ≤ durationMs ∧ requestId.all (boundedText 0 64) = true

instance (toolName connectorKey connectorVersion : Str) (httpStatus durationMs : Int) (requestId : Option Str) :
    Decidable (Accepts toolName connectorKey connectorVersion httpStatus durationMs requestId) :=
  inferInstanceAs (Decidable (_ ∧ _))

end ToolExecutionResult

/-- What an execution that reached the upstream came to; its content is always untrusted. -/
structure ToolExecutionResult where
  toolName : Str
  connectorKey : Str
  connectorVersion : Str
  status : ExecutionStatus
  httpStatus : Int
  durationMs : Int
  content : Value
  requestId : Option Str
  accepted : ToolExecutionResult.Accepts toolName connectorKey connectorVersion httpStatus durationMs requestId

end ToolLayer

namespace ToolLayer.Policy
open Python Kit Kit.Result

structure ExecutionLimits where
  connectTimeoutSeconds : Rat := 3
  readTimeoutSeconds : Rat := 10
  maxResponseBytes : Nat := 1024 * 1024
  connect : 0 < connectTimeoutSeconds ∧ connectTimeoutSeconds ≤ 30 := by norm_num
  read : 0 < readTimeoutSeconds ∧ readTimeoutSeconds ≤ 60 := by norm_num
  bounded : 0 < maxResponseBytes ∧ maxResponseBytes ≤ 16 * 1024 * 1024 := by norm_num

structure Reply where
  status : Nat
  headers : List (Str × Str)
  body : Bytes

/-- `HttpTransport.send`. -/
abbrev HttpTransport := PreparedRequest → ExecutionLimits → Except PyExc Reply

structure ToolExecutor where
  policy : DestinationPolicy
  limits : ExecutionLimits
  transport : HttpTransport
  resolver : DnsResolver
  /-- `json.loads` on a text. -/
  loads : Str → Except PyExc Value

/-- What a call came to, and the requests it sent. -/
structure Attempt (A : Type) where
  outcome : Except PyExc A
  sent : List PreparedRequest

def maxResponsePreview : Nat := 4096

/-- Where the call's tool comes from, and under which request it is recorded. -/
structure Origin where
  connectorKey : Str
  connectorVersion : Str
  requestId : Option Str

/-- `int(seconds * 1000)`. -/
def milliseconds (seconds : Rat) : Int := if 0 ≤ seconds then ⌊seconds * 1000⌋ else ⌈seconds * 1000⌉

section Content

variable [Unicode]

def contentType (headers : List (Str × Str)) : Str :=
  let declared := (Assoc.get (Str.lit "content-type") headers).getD []
  Unicode.lower ((Str.split declared ';').headD []).strip

def declaresJson (headers : List (Str × Str)) : Bool :=
  Str.endsWith (contentType headers) "json" || Str.endsWith (contentType headers) "+json"

/-- Decoding with replacement never raises, so there is no other fallback. -/
def textPreview (body : Bytes) (headers : List (Str × Str)) : Value :=
  let declared := contentType headers
  .dict [("content_type",.str (if declared.isEmpty then "unknown" else declared)),
    ("text",.str ((Utf8.decodeReplace body).take maxResponsePreview))]

/-- `_decode`. -/
def decodeContent (loads : Str → Except PyExc Value) (body : Bytes) (headers : List (Str × Str)) : Except PyExc Value :=
  if body.isEmpty then .ok .null
  else if declaresJson headers then
    match Utf8.decode body with
    | none => .ok (textPreview body headers)
    | some text =>
      match loads text with
      | .ok content => .ok content
      | .error e => if e.isValueError Failure.isValueError then .ok (textPreview body headers) else .error e
  else .ok (textPreview body headers)

end Content

namespace ToolExecutor

variable [Unicode] [Pydantic] [AddressRegistry] (executor : ToolExecutor) (engine : SchemaEngine)

def prepare (tool : ToolDefinition) (arguments : Value) (baseUrl : Str) : Except PyExc PreparedRequest := do
  executor.policy.checkMethod tool.operation.method.upper
  let validated ← validateArguments engine tool arguments
  let request ← prepareRequest tool validated baseUrl
  let _ ← executor.policy.check request.url executor.resolver
  return request

omit [AddressRegistry] in
/-- What is made of a reply: the part of `execute` after the request was sent. -/
def report (tool : ToolDefinition) (origin : Origin) (reply : Reply) (seconds : Rat) :
    Except PyExc ToolExecutionResult := do
  refuse (decide (300 ≤ reply.status) && decide (reply.status < 400)) (policyDenied .redirectNotAllowed
    "the upstream API returned a redirect, which is not followed")
  refuse (decide (executor.limits.maxResponseBytes < reply.body.length)) (policyDenied .responseTooLarge
    (Str.lit "the upstream response exceeds the " ++ Decimal.natural executor.limits.maxResponseBytes ++
      Str.lit " byte limit"))
  let content ← decodeContent executor.loads reply.body reply.headers
  validated (ToolExecutionResult.Accepts tool.toolName origin.connectorKey origin.connectorVersion reply.status
    (milliseconds seconds) origin.requestId) (fun accepted =>
      ⟨tool.toolName,origin.connectorKey,origin.connectorVersion,
        if reply.status < 400 then .succeeded else .upstreamError,reply.status,milliseconds seconds,content,
        origin.requestId,accepted⟩)

/-- `execute`, between a clock at `started` and at `finished`. -/
def execute (tool : ToolDefinition) (arguments : Value) (baseUrl : Str) (origin : Origin) (started finished : Rat) :
    Attempt ToolExecutionResult :=
  match executor.prepare engine tool arguments baseUrl with
  | .error e => ⟨.error e,[]⟩
  | .ok request =>
    match executor.transport request executor.limits with
    | .error e => ⟨.error e,[request]⟩
    | .ok reply => ⟨executor.report tool origin reply (finished - started),[request]⟩

end ToolExecutor

section Reports

variable [Unicode]

/-- `json.loads` reads the body or gives up on it with a `ValueError`, if it is tried at all. -/
def Readable (loads : Str → Except PyExc Value) (reply : Reply) : Prop :=
  reply.body ≠ [] → declaresJson reply.headers = true → ∀ text, Utf8.decode reply.body = some text →
    ∀ e, loads text = .error e → e.isValueError Failure.isValueError = true

theorem decodeContent_eq_ok {loads : Str → Except PyExc Value} {reply : Reply} :
    (∃ content, decodeContent loads reply.body reply.headers = .ok content) ↔ Readable loads reply := by
  unfold decodeContent Readable
  cases shape : reply.body with
  | nil => simp
  | cons b rest =>
    simp only [List.isEmpty_cons,Bool.false_eq_true,if_false,ne_eq,reduceCtorEq,not_false_eq_true,true_implies]
    by_cases declared : declaresJson reply.headers = true
    · simp only [declared,if_true,true_implies]
      cases decoded : Utf8.decode (b::rest) with
      | none => simp
      | some text =>
        cases read : loads text with
        | ok content => simp [read]
        | error e =>
          cases caught : e.isValueError Failure.isValueError with
          | true => simp [read,caught]
          | false => simp [read,caught]
    · simp [declared]

omit [Unicode] in
theorem milliseconds_nonneg {seconds : Rat} (forward : 0 ≤ seconds) : 0 ≤ milliseconds seconds := by
  rw [milliseconds,if_pos forward]
  exact Int.floor_nonneg.mpr (by linarith)

variable [Pydantic] [AddressRegistry] {executor : ToolExecutor} {engine : SchemaEngine} {tool : ToolDefinition}
  {arguments : Value} {baseUrl : Str} {origin : Origin} {request : PreparedRequest} {reply : Reply}
  {started finished : Rat}

theorem prepare_eq_ok : executor.prepare engine tool arguments baseUrl = .ok request ↔
    executor.policy.checkMethod tool.operation.method.upper = .ok () ∧
      (∃ validated, validateArguments engine tool arguments = .ok validated ∧
        prepareRequest tool validated baseUrl = .ok request) ∧
      ∃ destination, executor.policy.check request.url executor.resolver = .ok destination := by
  unfold ToolExecutor.prepare
  constructor
  · intro done
    obtain ⟨_,permitted,done⟩ := bind_eq_ok.mp done
    obtain ⟨validated,accepted,done⟩ := bind_eq_ok.mp done
    obtain ⟨built,prepared,done⟩ := bind_eq_ok.mp done
    obtain ⟨destination,checked,done⟩ := bind_eq_ok.mp done
    cases done
    exact ⟨permitted,⟨validated,accepted,prepared⟩,destination,checked⟩
  · rintro ⟨permitted,⟨validated,accepted,prepared⟩,destination,checked⟩
    rw [permitted,ok_bind,accepted,ok_bind,prepared,ok_bind,checked]
    rfl

/-- A call sends what was prepared, and otherwise nothing. -/
theorem execute_cases (executor : ToolExecutor) (engine : SchemaEngine) (tool : ToolDefinition) (arguments : Value)
    (baseUrl : Str) (origin : Origin) (started finished : Rat) :
    (∃ e, executor.execute engine tool arguments baseUrl origin started finished = ⟨.error e,[]⟩) ∨
    ∃ request outcome, executor.prepare engine tool arguments baseUrl = .ok request ∧
      executor.execute engine tool arguments baseUrl origin started finished = ⟨outcome,[request]⟩ := by
  unfold ToolExecutor.execute
  cases prepared : executor.prepare engine tool arguments baseUrl with
  | error e => exact Or.inl ⟨e,rfl⟩
  | ok request =>
    refine Or.inr ⟨request,?_⟩
    dsimp only
    cases executor.transport request executor.limits with
    | error e => exact ⟨_,rfl,rfl⟩
    | ok reply => exact ⟨_,rfl,rfl⟩

/-- A call that was answered is reported as executed exactly when the fields of the report
allow what the upstream and the caller put into them. -/
theorem execute_reports_iff (prepared : executor.prepare engine tool arguments baseUrl = .ok request)
    (answered : executor.transport request executor.limits = .ok reply)
    (threeDigits : 100 ≤ reply.status ∧ reply.status ≤ 999) (direct : reply.status < 300 ∨ 400 ≤ reply.status)
    (fits : reply.body.length ≤ executor.limits.maxResponseBytes) (clock : started ≤ finished) :
    (∃ result, (executor.execute engine tool arguments baseUrl origin started finished).outcome = .ok result ∧
      result.httpStatus = reply.status) ↔
    reply.status ≤ 599 ∧ origin.requestId.all (boundedText 0 64) = true ∧ resourceKey origin.connectorKey = true ∧
      semanticVersion origin.connectorVersion = true ∧ Readable executor.loads reply := by
  have reported : (executor.execute engine tool arguments baseUrl origin started finished).outcome =
      executor.report tool origin reply (finished - started) := by
    rw [ToolExecutor.execute,prepared]
    dsimp only
    rw [answered]
  have redirected : (decide (300 ≤ reply.status) && decide (reply.status < 400)) = false := by
    rcases direct with low | high
    · simp [Nat.not_le.mpr low]
    · simp [Nat.not_lt.mpr high]
  rw [reported,ToolExecutor.report,redirected,refuse_false,ok_bind,decide_eq_false (Nat.not_lt.mpr fits),refuse_false,
    ok_bind,← decodeContent_eq_ok]
  constructor
  · rintro ⟨result,done,_⟩
    obtain ⟨content,decoded,built⟩ := bind_eq_ok.mp done
    obtain ⟨⟨_,key,version,_,high,_,named⟩,_⟩ := validated_eq_ok.mp built
    exact ⟨by exact_mod_cast high,named,key,version,content,decoded⟩
  · rintro ⟨high,named,key,version,content,decoded⟩
    have accepted : ToolExecutionResult.Accepts tool.toolName origin.connectorKey origin.connectorVersion reply.status
        (milliseconds (finished - started)) origin.requestId :=
      ⟨tool.accepted.1,key,version,by exact_mod_cast threeDigits.1,by exact_mod_cast high,
        milliseconds_nonneg (by linarith),named⟩
    exact ⟨_,bind_eq_ok.mpr ⟨content,decoded,validated_eq_ok.mpr ⟨accepted,rfl⟩⟩,rfl⟩

end Reports

section Ping

local instance pingUnicode : Unicode := Unicode.asciiOnly
local instance pingPydantic : Pydantic := Pydantic.exact

/-- Every address is an ordinary global one. -/
local instance globalAddresses : AddressRegistry where
  text _ := []
  isLoopback _ := false
  isMulticast _ := false
  isReserved _ := false
  isUnspecified _ := false
  isLinkLocal _ := false
  isGlobal _ := true

def pingTool : ToolDefinition where
  toolName := "ping"
  displayName := "Ping"
  description := "Ping."
  inputSchema := [("$schema",.str ToolDefinition.dialect),("type",.str "object"),("properties",.dict []),
    ("required",.list []),("additionalProperties",.bool false)]
  operation := ⟨.get,"/ping",[],false,by decide⟩
  policy := ⟨.read,false,.unrestricted⟩
  provenance := ⟨none,"/ping",.get,[],false,.source,by decide⟩
  accepted := by decide

/-- The upstream answers every request with an empty 200. -/
def pingExecutor : ToolExecutor where
  policy := { allowedOrigins := ["http://desk.test:80"],allowPlaintextHttp := true }
  limits := {}
  transport _ _ := .ok ⟨200,[],[]⟩
  resolver _ _ := .ok ["93.184.216.34"]
  loads _ := .error .valueError

def pingOrigin (requestId : Str) : Origin := ⟨"desk","1.0.0",some requestId⟩

theorem ping_prepared : ∃ request,
    pingExecutor.prepare SchemaSubset.engine pingTool (.dict []) "http://desk.test" = .ok request := by
  have done : okWith (fun _ => true)
      (pingExecutor.prepare SchemaSubset.engine pingTool (.dict []) "http://desk.test") = true := by
    decide +kernel
  obtain ⟨request,prepared,_⟩ := exists_of_okWith done
  exact ⟨request,prepared⟩

theorem execute_reports_ping : (∃ result, (pingExecutor.execute SchemaSubset.engine pingTool (.dict [])
      "http://desk.test" (pingOrigin "turn-1") 0 0).outcome = .ok result ∧ result.httpStatus = 200) := by
  obtain ⟨request,prepared⟩ := ping_prepared
  have answered : pingExecutor.transport request pingExecutor.limits = .ok ⟨200,[],[]⟩ := rfl
  refine (execute_reports_iff prepared answered (by decide) (by decide) (by decide) le_rfl).mpr ?_
  exact ⟨by decide,by decide,by decide,by decide,fun filled => absurd rfl filled⟩

/-- A request id of 65 letters makes the report fail after the request was sent. -/
theorem long_request_id_unreported : ∃ request,
    pingExecutor.execute SchemaSubset.engine pingTool (.dict []) "http://desk.test"
      (pingOrigin (List.replicate 65 (CodePoint.ofChar 'a'))) 0 0 = ⟨.error .validationError,[request]⟩ ∧
    pingExecutor.transport request pingExecutor.limits = .ok ⟨200,[],[]⟩ := by
  obtain ⟨request,prepared⟩ := ping_prepared
  have answered : pingExecutor.transport request pingExecutor.limits = .ok ⟨200,[],[]⟩ := rfl
  have reported : pingExecutor.report pingTool (pingOrigin (List.replicate 65 (CodePoint.ofChar 'a'))) ⟨200,[],[]⟩
      (0 - 0) = .error .validationError := by
    rw [ToolExecutor.report,decide_eq_false (by decide),Bool.false_and,refuse_false,ok_bind,
      decide_eq_false (by decide),refuse_false,ok_bind]
    have empty : decodeContent pingExecutor.loads [] [] = .ok .null := rfl
    dsimp only
    rw [empty,ok_bind]
    exact validated_eq_error.mpr ⟨fun accepted => absurd accepted.2.2.2.2.2.2 (by decide),rfl⟩
  refine ⟨request,?_,answered⟩
  rw [ToolExecutor.execute,prepared]
  dsimp only
  rw [answered]
  dsimp only
  rw [reported]

end Ping

end ToolLayer.Policy
