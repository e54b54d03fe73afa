import ToolLayer.Policy.Executor

/-! `HttpxTransport`: one request without redirects or retries, whose body is cut off
while it is read. -/
namespace ToolLayer.Policy
open Python Kit Kit.Result

/-- `httpx.TimeoutException`, and every other `httpx.HTTPError`. -/
inductive HttpFailure where
  | timeout
  | other

def HttpFailure.denied : HttpFailure → PyExc
  | .timeout => policyDenied .upstreamTimeout "the upstream API did not respond in time"
  | .other => policyDenied .upstreamUnavailable "the upstream API could not be reached"

/-- What the request for one more chunk is answered with. -/
inductive Chunk where
  | data (bytes : Bytes)
  | finished
  | failed (f : HttpFailure)

/-- A response that is streamed; `iter_bytes` yields no empty chunk, and may never finish. -/
structure Response where
  status : Nat
  headers : List (Str × Str)
  chunks : Nat → Chunk
  filled : ∀ i bytes, chunks i = .data bytes → bytes ≠ []

/-- `client.stream`, up to the headers. -/
abbrev Connect := PreparedRequest → ExecutionLimits → Except HttpFailure Response

/-- `headers.setdefault("user-agent", …)`. -/
def withUserAgent (request : PreparedRequest) : PreparedRequest :=
  if (Assoc.get (Str.lit "user-agent") request.headers).isSome then request
  else { request with
    headers := request.headers ++ [(Str.lit "user-agent",Str.lit "toollayer-runtime/0.1")] }

def responseTooLarge (limits : ExecutionLimits) : PyExc := policyDenied .responseTooLarge
  (Str.lit "the upstream response exceeds the " ++ Decimal.natural limits.maxResponseBytes ++ Str.lit " byte limit")

/-- The loop over `iter_bytes`: what it collected, and how many chunks it asked for. Every
chunk adds a byte, so that as many rounds as the ceiling are enough. -/
def collect (ceiling : Nat) (chunks : Nat → Chunk) : Nat → Nat → Bytes → Except HttpFailure (Bytes × Nat)
  | 0,asked,collected => .ok (collected,asked)
  | rounds + 1,asked,collected =>
    match chunks asked with
    | .data bytes =>
      if ceiling ≤ (collected ++ bytes).length then .ok ((collected ++ bytes).take ceiling,asked + 1)
      else collect ceiling chunks rounds (asked + 1) (collected ++ bytes)
    | .finished => .ok (collected,asked + 1)
    | .failed f => .error f

def readBody (limits : ExecutionLimits) (r : Response) : Except HttpFailure (Bytes × Nat) :=
  let ceiling := limits.maxResponseBytes + 1
  collect ceiling r.chunks ceiling 0 []

section Send

variable [Unicode]

/-- A header that is absent or malformed declares nothing. -/
def declaredLengthExceeds (headers : List (Str × Str)) (maximum : Nat) : Bool :=
  match Assoc.get (Str.lit "content-length") headers with
  | none => false
  | some raw =>
    match Str.int? raw with
    | some n => decide ((maximum : Int) < n)
    | none => false

/-- `send`, once the headers are there. -/
def receive (limits : ExecutionLimits) (r : Response) : Except PyExc Reply := do
  refuse (declaredLengthExceeds r.headers limits.maxResponseBytes) (responseTooLarge limits)
  match readBody limits r with
  | .ok (body,_) => return ⟨r.status,r.headers,body⟩
  | .error f => throw f.denied

/-- `HttpxTransport.send`. -/
def httpxTransport (connect : Connect) : HttpTransport := fun request limits =>
  match connect (withUserAgent request) limits with
  | .ok r => receive limits r
  | .error f => .error f.denied

end Send

section Reading

/-- The bytes of the first chunks. -/
def received (chunks : Nat → Chunk) : Nat → Bytes
  | 0 => []
  | n + 1 => received chunks n ++ match chunks n with
    | .data bytes => bytes
    | _ => []

/-- The first chunks all hold data. -/
def Flows (chunks : Nat → Chunk) (n : Nat) : Prop := ∀ i < n, ∃ bytes, chunks i = .data bytes

variable {chunks : Nat → Chunk} {ceiling : Nat}

theorem Flows.succ {n : Nat} {bytes : Bytes} (flows : Flows chunks n) (data : chunks n = .data bytes) :
    Flows chunks (n + 1) ∧ received chunks (n + 1) = received chunks n ++ bytes := by
  refine ⟨fun i below => ?_,by rw [received,data]⟩
  rcases Nat.lt_succ_iff_lt_or_eq.mp below with earlier | rfl
  · exact flows i earlier
  · exact ⟨bytes,data⟩

theorem received_grows {m n : Nat} (order : m ≤ n) : received chunks m <+: received chunks n := by
  induction n, order using Nat.le_induction with
  | base => exact List.prefix_refl _
  | succ n _ ih => exact ih.trans (List.prefix_append _ _)

/-- How the loop ends: at the end of the body, past the ceiling, or with a failure. -/
inductive Collected (ceiling : Nat) (chunks : Nat → Chunk) : Except HttpFailure (Bytes × Nat) → Prop where
  | whole (n : Nat) (flows : Flows chunks n) (last : chunks n = .finished)
    (short : (received chunks n).length < ceiling) : Collected ceiling chunks (.ok (received chunks n,n + 1))
  | cut (n : Nat) (flows : Flows chunks (n + 1)) (short : (received chunks n).length < ceiling)
    (long : ceiling ≤ (received chunks (n + 1)).length) :
    Collected ceiling chunks (.ok ((received chunks (n + 1)).take ceiling,n + 1))
  | failed (n : Nat) (f : HttpFailure) (flows : Flows chunks n) (broken : chunks n = .failed f) :
    Collected ceiling chunks (.error f)

theorem collect_collected (filled : ∀ i bytes, chunks i = .data bytes → bytes ≠ []) {rounds n : Nat}
    (flows : Flows chunks n) (short : (received chunks n).length < ceiling)
    (enough : ceiling ≤ (received chunks n).length + rounds) :
    Collected ceiling chunks (collect ceiling chunks rounds n (received chunks n)) := by
  induction rounds generalizing n with
  | zero => omega
  | succ rounds ih =>
    rw [collect]
    cases asked : chunks n with
    | data bytes =>
      obtain ⟨further,grown⟩ := flows.succ asked
      have some_ : 0 < bytes.length := List.length_pos_iff.mpr (filled n bytes asked)
      dsimp only
      rw [← grown]
      split
      next long => exact .cut n further short long
      next room =>
        refine ih further (not_le.mp room) ?_
        rw [grown,List.length_append]
        omega
    | finished => exact .whole n flows asked short
    | failed f => exact .failed n f flows asked

theorem readBody_collected (limits : ExecutionLimits) (r : Response) :
    Collected (limits.maxResponseBytes + 1) r.chunks (readBody limits r) :=
  collect_collected r.filled (n := 0) (fun _ below => absurd below (by omega)) (by simp [received]) (by omega)

/-- The body, when the chunks come to an end. -/
def Whole (chunks : Nat → Chunk) (body : Bytes) : Prop :=
  ∃ n, Flows chunks n ∧ chunks n = .finished ∧ received chunks n = body

/-- The bytes start so. -/
def Starts (chunks : Nat → Chunk) (front : Bytes) : Prop := ∃ n, Flows chunks n ∧ front <+: received chunks n

/-- Past the end of the body nothing flows. -/
theorem Whole.bounds {body : Bytes} (whole : Whole chunks body) {n : Nat} (flows : Flows chunks n) :
    received chunks n <+: body := by
  obtain ⟨last,_,ended,rfl⟩ := whole
  rcases Nat.lt_or_ge last n with past | within
  · obtain ⟨bytes,data⟩ := flows last past
    rw [ended] at data
    cases data
  · exact received_grows within

theorem Whole.starts_iff {body front : Bytes} (whole : Whole chunks body) : Starts chunks front ↔ front <+: body := by
  constructor
  · rintro ⟨n,flows,start⟩
    exact start.trans (whole.bounds flows)
  · intro start
    obtain ⟨last,flows,_,rfl⟩ := whole
    exact ⟨last,flows,start⟩

theorem Whole.unique {body other : Bytes} (first : Whole chunks body) (second : Whole chunks other) : body = other := by
  obtain ⟨n,flows,_,rfl⟩ := first
  obtain ⟨m,flows',_,rfl⟩ := second
  have there := Whole.bounds ⟨m,flows',‹_›,rfl⟩ flows
  have back := Whole.bounds ⟨n,flows,‹_›,rfl⟩ flows'
  exact there.eq_of_length (Nat.le_antisymm there.length_le back.length_le)

variable {limits : ExecutionLimits} {r other : Response}

/-- A body that ends within the limit is read as it is. -/
theorem readBody_of_whole {body : Bytes} (whole : Whole r.chunks body) (fits : body.length ≤ limits.maxResponseBytes) :
    ∃ asked, readBody limits r = .ok (body,asked) := by
  have collected := readBody_collected limits r
  generalize readBody limits r = outcome at collected ⊢
  cases collected with
  | whole n flows last _ => exact ⟨n + 1,by rw [whole.unique ⟨n,flows,last,rfl⟩]⟩
  | cut n flows _ long =>
    have inside := (whole.bounds flows).length_le
    omega
  | failed n f flows broken =>
    obtain ⟨last,through,ended,_⟩ := whole
    rcases lt_trichotomy n last with before | rfl | after
    · obtain ⟨bytes,data⟩ := through n before
      rw [broken] at data
      cases data
    · rw [broken] at ended
      cases ended
    · obtain ⟨bytes,data⟩ := flows last after
      rw [ended] at data
      cases data

/-- Any other body is read beyond the limit. -/
theorem readBody_of_long (delivered : ∀ i f, r.chunks i ≠ .failed f)
    (long : ¬ ∃ body, Whole r.chunks body ∧ body.length ≤ limits.maxResponseBytes) :
    ∃ body asked, readBody limits r = .ok (body,asked) ∧ limits.maxResponseBytes < body.length := by
  have collected := readBody_collected limits r
  generalize readBody limits r = outcome at collected ⊢
  cases collected with
  | whole n flows last short => exact absurd ⟨_,⟨n,flows,last,rfl⟩,by omega⟩ long
  | cut n flows _ beyond =>
    refine ⟨_,_,rfl,?_⟩
    rw [List.length_take]
    omega
  | failed n f _ broken => exact absurd broken (delivered n f)

theorem length_readBody {body : Bytes} {asked : Nat} (read : readBody limits r = .ok (body,asked)) :
    body.length ≤ limits.maxResponseBytes + 1 := by
  have collected := readBody_collected limits r
  rw [read] at collected
  generalize outcome : (Except.ok (body,asked) : Except HttpFailure (Bytes × Nat)) = result at collected
  cases collected with
  | whole n _ _ short =>
    cases outcome
    omega
  | cut n _ _ _ =>
    cases outcome
    rw [List.length_take]
    omega
  | failed => cases outcome

/-- No chunk is asked for once more than the limit has been received. -/
theorem asked_within {body : Bytes} {asked i : Nat} (read : readBody limits r = .ok (body,asked)) (below : i < asked) :
    Flows r.chunks i ∧ (received r.chunks i).length ≤ limits.maxResponseBytes := by
  have collected := readBody_collected limits r
  rw [read] at collected
  generalize outcome : (Except.ok (body,asked) : Except HttpFailure (Bytes × Nat)) = result at collected
  have prefix_ : ∀ n, i < n + 1 → (received r.chunks i).length ≤ (received r.chunks n).length :=
    fun n order => (received_grows (Nat.lt_succ_iff.mp order)).length_le
  cases collected with
  | whole n flows _ short =>
    cases outcome
    have grown := prefix_ n below
    exact ⟨fun j earlier => flows j (by omega),by omega⟩
  | cut n flows short _ =>
    cases outcome
    have grown := prefix_ n below
    exact ⟨fun j earlier => flows j (by omega),by omega⟩
  | failed => cases outcome

/-- The same bytes, cut into chunks in another way, end within the limit where these do. -/
theorem whole_of_same (delivered : ∀ i f, other.chunks i ≠ .failed f)
    (same : ∀ front, Starts r.chunks front ↔ Starts other.chunks front) {body : Bytes} (whole : Whole r.chunks body)
    (fits : body.length ≤ limits.maxResponseBytes) : Whole other.chunks body := by
  have inside : ∀ n, Flows other.chunks n → received other.chunks n <+: body := by
    intro n flows
    exact whole.starts_iff.mp ((same _).mpr ⟨n,flows,List.prefix_refl _⟩)
  have collected := readBody_collected limits other
  generalize readBody limits other = outcome at collected
  cases collected with
  | whole n flows last _ =>
    have ended : Whole other.chunks (received other.chunks n) := ⟨n,flows,last,rfl⟩
    have back := ended.starts_iff.mp ((same body).mp (whole.starts_iff.mpr (List.prefix_refl _)))
    have there := inside n flows
    rw [there.eq_of_length (Nat.le_antisymm there.length_le back.length_le)] at ended
    exact ended
  | cut n flows _ long =>
    have short := (inside _ flows).length_le
    omega
  | failed n f _ broken => exact absurd broken (delivered n f)

end Reading

section Outcome

variable [Unicode] [Pydantic] [AddressRegistry] {executor : ToolExecutor} {engine : SchemaEngine} {tool : ToolDefinition}
  {arguments : Value} {baseUrl : Str} {origin : Origin} {request : PreparedRequest} {connect : Connect} {r : Response}
  {started finished : Rat}

/-- What a response is reported as. -/
def ToolExecutor.answer (executor : ToolExecutor) (tool : ToolDefinition) (origin : Origin) (seconds : Rat)
    (r : Response) : Except PyExc ToolExecutionResult := do
  let reply ← receive executor.limits r
  executor.report tool origin reply seconds

/-- The report of decoded content. -/
def reported (tool : ToolDefinition) (origin : Origin) (seconds : Rat) (status : Nat) (content : Value) :
    Except PyExc ToolExecutionResult :=
  validated (ToolExecutionResult.Accepts tool.toolName origin.connectorKey origin.connectorVersion status
    (milliseconds seconds) origin.requestId) (fun accepted =>
      ⟨tool.toolName,origin.connectorKey,origin.connectorVersion,
        if status < 400 then .succeeded else .upstreamError,status,milliseconds seconds,content,
        origin.requestId,accepted⟩)

theorem execute_outcome (transport : executor.transport = httpxTransport connect)
    (prepared : executor.prepare engine tool arguments baseUrl = .ok request)
    (answered : connect (withUserAgent request) executor.limits = .ok r) :
    (executor.execute engine tool arguments baseUrl origin started finished).outcome =
      executor.answer tool origin (finished - started) r := by
  rw [ToolExecutor.execute,prepared]
  dsimp only
  rw [transport,httpxTransport,answered]
  dsimp only
  rw [ToolExecutor.answer]
  cases receive executor.limits r <;> rfl

/-- No well-formed declared length exceeds the limit. -/
def DeclaresWithin (headers : List (Str × Str)) (maximum : Nat) : Prop :=
  ∀ raw n, Assoc.get (Str.lit "content-length") headers = some raw → Str.int? raw = some n → n ≤ maximum

omit [Pydantic] [AddressRegistry] in
theorem declaredLengthExceeds_eq_false {headers : List (Str × Str)} {maximum : Nat} :
    declaredLengthExceeds headers maximum = false ↔ DeclaresWithin headers maximum := by
  unfold declaredLengthExceeds DeclaresWithin
  rw [forall_comm]
  cases Assoc.get (Str.lit "content-length") headers with
  | none => simp
  | some raw =>
    simp only [Option.some.injEq,forall_eq']
    cases Str.int? raw with
    | none => simp
    | some n => simp

omit [AddressRegistry] in
theorem answer_of_whole {seconds : Rat} {body : Bytes} (direct : r.status < 300 ∨ 400 ≤ r.status)
    (declared : DeclaresWithin r.headers executor.limits.maxResponseBytes) (whole : Whole r.chunks body)
    (fits : body.length ≤ executor.limits.maxResponseBytes) :
    executor.answer tool origin seconds r =
      decodeContent executor.loads body r.headers >>= reported tool origin seconds r.status := by
  obtain ⟨asked,read⟩ := readBody_of_whole whole fits
  have redirected : (decide (300 ≤ r.status) && decide (r.status < 400)) = false := by
    rcases direct with low | high
    · simp [Nat.not_le.mpr low]
    · simp [Nat.not_lt.mpr high]
  rw [ToolExecutor.answer,receive,declaredLengthExceeds_eq_false.mpr declared,refuse_false,ok_bind,read]
  simp only [pure_eq_ok,ok_bind]
  rw [ToolExecutor.report,redirected,refuse_false,ok_bind,decide_eq_false (Nat.not_lt.mpr fits),refuse_false,ok_bind]
  rfl

omit [AddressRegistry] in
theorem answer_of_long {seconds : Rat} (direct : r.status < 300 ∨ 400 ≤ r.status)
    (delivered : ∀ i f, r.chunks i ≠ .failed f)
    (long : ¬ (DeclaresWithin r.headers executor.limits.maxResponseBytes ∧
      ∃ body, Whole r.chunks body ∧ body.length ≤ executor.limits.maxResponseBytes)) :
    executor.answer tool origin seconds r = .error (responseTooLarge executor.limits) := by
  rw [ToolExecutor.answer,receive]
  by_cases declared : DeclaresWithin r.headers executor.limits.maxResponseBytes
  · obtain ⟨body,asked,read,beyond⟩ := readBody_of_long delivered (fun short => long ⟨declared,short⟩)
    have redirected : (decide (300 ≤ r.status) && decide (r.status < 400)) = false := by
      rcases direct with low | high
      · simp [Nat.not_le.mpr low]
      · simp [Nat.not_lt.mpr high]
    rw [declaredLengthExceeds_eq_false.mpr declared,refuse_false,ok_bind,read]
    simp only [pure_eq_ok,ok_bind]
    rw [ToolExecutor.report,redirected,refuse_false,ok_bind,decide_eq_true beyond,refuse_true]
    rfl
  · have exceeds : declaredLengthExceeds r.headers executor.limits.maxResponseBytes = true := by
      rw [← Bool.not_eq_false,declaredLengthExceeds_eq_false]
      exact declared
    rw [exceeds,refuse_true]
    rfl

/-- The bound on a response is exact, whatever its chunks: within it the body is decoded as a
whole, beyond it the call is refused, and no more than one byte past it is ever returned. -/
theorem response_bound_exact (transport : executor.transport = httpxTransport connect)
    (prepared : executor.prepare engine tool arguments baseUrl = .ok request)
    (answered : connect (withUserAgent request) executor.limits = .ok r)
    (delivered : ∀ i f, r.chunks i ≠ .failed f) (direct : r.status < 300 ∨ 400 ≤ r.status) :
    let outcome := (executor.execute engine tool arguments baseUrl origin started finished).outcome
    (∀ body, DeclaresWithin r.headers executor.limits.maxResponseBytes → Whole r.chunks body →
      body.length ≤ executor.limits.maxResponseBytes →
      outcome = decodeContent executor.loads body r.headers >>= reported tool origin (finished - started) r.status) ∧
    (¬ (DeclaresWithin r.headers executor.limits.maxResponseBytes ∧
        ∃ body, Whole r.chunks body ∧ body.length ≤ executor.limits.maxResponseBytes) →
      outcome = .error (responseTooLarge executor.limits)) ∧
    (∀ other : Response, other.status = r.status → other.headers = r.headers →
      (∀ i f, other.chunks i ≠ .failed f) → (∀ front, Starts r.chunks front ↔ Starts other.chunks front) →
      executor.answer tool origin (finished - started) other = outcome) ∧
    (∀ reply, receive executor.limits r = .ok reply →
      reply.body.length ≤ executor.limits.maxResponseBytes + 1) ∧
    ∃ body asked, readBody executor.limits r = .ok (body,asked) ∧
      ∀ i < asked, (received r.chunks i).length ≤ executor.limits.maxResponseBytes := by
  intro outcome
  have same : outcome = executor.answer tool origin (finished - started) r := execute_outcome transport prepared answered
  rw [same]
  refine ⟨fun body declared whole fits => answer_of_whole direct declared whole fits,answer_of_long direct delivered,
    ?_,fun reply done => ?_,?_⟩
  · intro other status headers delivered' bytes
    have direct' : other.status < 300 ∨ 400 ≤ other.status := by rwa [status]
    by_cases short : DeclaresWithin r.headers executor.limits.maxResponseBytes ∧
        ∃ body, Whole r.chunks body ∧ body.length ≤ executor.limits.maxResponseBytes
    · obtain ⟨declared,body,whole,fits⟩ := short
      rw [answer_of_whole direct declared whole fits,
        answer_of_whole direct' (by rwa [headers]) (whole_of_same delivered' bytes whole fits) fits,status,headers]
    · have long : ¬ (DeclaresWithin other.headers executor.limits.maxResponseBytes ∧
          ∃ body, Whole other.chunks body ∧ body.length ≤ executor.limits.maxResponseBytes) := by
        rintro ⟨declared,body,whole,fits⟩
        exact short ⟨headers ▸ declared,body,whole_of_same delivered (fun front => (bytes front).symm) whole fits,fits⟩
      rw [answer_of_long direct delivered short,answer_of_long direct' delivered' long]
  · obtain ⟨_,done⟩ := refuse_bind_eq_ok.mp done
    split at done
    next body asked read =>
      cases done
      exact length_readBody read
    next => cases done
  · by_cases short : ∃ body, Whole r.chunks body ∧ body.length ≤ executor.limits.maxResponseBytes
    · obtain ⟨body,whole,fits⟩ := short
      obtain ⟨asked,read⟩ := readBody_of_whole whole fits
      exact ⟨body,asked,read,fun i below => (asked_within read below).2⟩
    · obtain ⟨body,asked,read,_⟩ := readBody_of_long delivered short
      exact ⟨body,asked,read,fun i below => (asked_within read below).2⟩

end Outcome

section Ping

local instance chunkedUnicode : Unicode := Unicode.asciiOnly
local instance chunkedPydantic : Pydantic := Pydantic.exact
local instance chunkedAddresses : AddressRegistry := globalAddresses

/-- Three bytes in two chunks. -/
def chunkedResponse : Response where
  status := 200
  headers := []
  chunks i := if i = 0 then .data [0x6F,0x6B] else if i = 1 then .data [0x21] else .finished
  filled := by
    intro i bytes data
    split at data
    · cases data
      simp
    · split at data
      · cases data
        simp
      · cases data

def chunkedExecutor : ToolExecutor :=
  { pingExecutor with transport := httpxTransport (fun _ _ => .ok chunkedResponse) }

theorem response_bound_exact_chunked : ∃ request,
    chunkedExecutor.prepare SchemaSubset.engine pingTool (.dict []) "http://desk.test" = .ok request ∧
    (chunkedExecutor.execute SchemaSubset.engine pingTool (.dict []) "http://desk.test" (pingOrigin "turn-1") 0 0).outcome =
      decodeContent chunkedExecutor.loads [0x6F,0x6B,0x21] [] >>= reported pingTool (pingOrigin "turn-1") (0 - 0) 200 := by
  have done : okWith (fun _ => true)
      (chunkedExecutor.prepare SchemaSubset.engine pingTool (.dict []) "http://desk.test") = true := by
    decide +kernel
  obtain ⟨request,prepared,_⟩ := exists_of_okWith done
  have delivered : ∀ i f, chunkedResponse.chunks i ≠ .failed f := by
    intro i f broken
    unfold chunkedResponse at broken
    dsimp only at broken
    split at broken
    · cases broken
    · split at broken <;> cases broken
  have bound := @response_bound_exact _ _ _ chunkedExecutor SchemaSubset.engine pingTool (.dict []) "http://desk.test"
    (pingOrigin "turn-1") request (fun _ _ => .ok chunkedResponse) chunkedResponse 0 0 rfl prepared rfl delivered
    (Or.inl (by decide))
  refine ⟨request,prepared,bound.1 _ ?_ ⟨2,?_,rfl,rfl⟩ (by decide)⟩
  · intro raw n declared
    cases declared
  · intro i below
    match i,below with
    | 0,_ => exact ⟨_,rfl⟩
    | 1,_ => exact ⟨_,rfl⟩

end Ping

end ToolLayer.Policy
