import ToolLayer.Contracts.Schema
import ToolLayer.Contracts.ToolModel
import ToolLayer.Policy.Objects
import ToolLayer.Python.Url

/-! Checking proposed arguments against a tool's schema and building the request
from the tool's bindings. -/
namespace ToolLayer.Policy
open Python Kit Kit.Result

def maxArgumentBytes : Nat := 64 * 1024

def argumentValidationError (message : Str) (pointer : Str) (details : List ErrorDetail := []) : PyExc :=
  toolLayerError .argumentValidationFailed message (some pointer) details

structure PreparedRequest where
  method : HttpMethod
  url : Str
  path : Str
  query : List (Str × Str)
  headers : List (Str × Str)
  body : Option Bytes
  contentType : Option Str
  deriving DecidableEq

/-- `_scalar`. -/
def scalarText (value : Value) (pointer : Str) : Except PyExc Str :=
  match value with
  | .bool b => .ok (if b then "true" else "false")
  | .int n => Decimal.str n
  | .float x => .ok x.repr
  | .str s => .ok s
  | _ => .error (argumentValidationError "only scalar arguments can be placed in a path or query" pointer)

/-- `_header_value`. -/
def headerValue (value : Value) (pointer : Str) : Except PyExc Str := do
  let text ← scalarText value pointer
  refuse (text.any (fun c => c == CodePoint.ofChar '\r' || c == CodePoint.ofChar '\n' || decide (c.val = 0)))
    (argumentValidationError "a header value may not contain a control character" pointer)
  return text

/-- The tokens of a pointer, still escaped: `pointer.split("/")[1:]`. -/
def pointerTokens (pointer : Str) : List Str := (Str.split pointer '/').drop 1

/-- The descent of `_read_pointer`; `none` is absence. -/
def readTokens (objects : Objects) : List Str → Held → Option Held
  | [],current => some current
  | token::rest,.object place =>
    match objects.lookup place (unescape token) with
    | some next => readTokens objects rest next
    | none => none
  | _::_,.plain _ => none

/-- `_read_pointer`, into the arguments. -/
def readPointer (objects : Objects) (pointer : Str) : Option Held :=
  if pointer.isEmpty then some (.object (.argument []))
  else readTokens objects (pointerTokens pointer) (.object (.argument []))

/-- `_write_pointer`, into the body. -/
def writePointer (objects : Objects) (pointer : Str) (held : Held) : Except PyExc Objects :=
  match ((pointerTokens pointer).map unescape).reverse with
  | [] => .error (argumentValidationError "a body binding must target a property" pointer)
  | last::front => .ok (objects.writeTokens Objects.body front.reverse last held)

def placeholder (name : Str) : Str := CodePoint.openingBrace :: (name ++ [CodePoint.closingBrace])

/-- The request under construction. -/
structure Draft where
  path : Str
  query : List (Str × Str)
  headers : List (Str × Str)
  objects : Objects
  hasBody : Bool

section Requests

variable [Unicode] [Pydantic]

def validateArguments (engine : SchemaEngine) (tool : ToolDefinition) (arguments : Value) :
    Except PyExc Dict :=
  match arguments with
  | .dict members => do
    let text ← Json.dumps .default (.dict members)
    let encoded ← Utf8.encode text
    refuse (decide (maxArgumentBytes < encoded.length))
      (argumentValidationError (Str.lit "tool arguments exceed the 65536 byte limit") [])
    let errors ← engine.iterErrors tool.inputSchema (.dict members)
    match sortErrors errors with
    | [] => return members
    | first::rest =>
      throw (argumentValidationError "the proposed arguments do not satisfy the tool's input schema"
        (pointerOf first.path) (((first::rest).take 25).map (errorDetail "argument")))
  | _ => .error (argumentValidationError "tool arguments must be a JSON object" [])

/-- A path argument takes its placeholder's place, percent-encoded. -/
def placeInPath (draft : Draft) (binding : ArgumentBinding) (held : Held) : Except PyExc Draft := do
  refuse (!Str.contains (placeholder binding.targetName) draft.path)
    (argumentValidationError "a path binding does not match the tool's path template" binding.argumentPointer)
  let text ← scalarText held.shown binding.argumentPointer
  let encoded ← Url.quote text
  return { draft with path := Str.replace draft.path (placeholder binding.targetName) encoded }

/-- One round of the binding loop of `prepare_request`. -/
def placeArgument (draft : Draft) (binding : ArgumentBinding) : Except PyExc Draft :=
  match readPointer draft.objects binding.argumentPointer with
  | none | some (.plain .null) => .ok draft
  | some held =>
    match binding.target with
    | .path => placeInPath draft binding held
    | .query => do
      let text ← scalarText held.shown binding.argumentPointer
      return { draft with query := draft.query ++ [(binding.targetName,text)] }
    | .header => do
      let text ← headerValue held.shown binding.argumentPointer
      return { draft with headers := draft.headers ++ [(binding.targetName,text)] }
    | .body => do
      let objects ← writePointer draft.objects binding.targetName held
      return { draft with objects := objects,hasBody := true }

/-- The body bytes and their content type. -/
def encodeBody (draft : Draft) : Except PyExc (Option Bytes × Option Str) :=
  if draft.hasBody then do
    let body ← draft.objects.encodable Objects.body
    let text ← Json.dumps .compact (.dict body)
    let encoded ← Utf8.encode text
    return (some encoded,some "application/json")
  else .ok (none,none)

def requestUrl (baseUrl path : Str) (query : List (Str × Str)) : Except PyExc Str :=
  let target := Str.rstrip (fun c => c == CodePoint.ofChar '/') baseUrl ++ path
  if query.isEmpty then .ok target
  else do
    let encoded ← Url.urlencode query
    return target ++ CodePoint.ofChar '?' :: encoded

def prepareRequest (tool : ToolDefinition) (arguments : Dict) (baseUrl : Str) :
    Except PyExc PreparedRequest := do
  let draft ← loop placeArgument ⟨tool.operation.pathTemplate,[],[],Objects.start arguments,false⟩ tool.operation.bindings
  refuse (draft.path.any (fun c => c == CodePoint.openingBrace || c == CodePoint.closingBrace))
    (argumentValidationError "the request path still contains an unfilled placeholder" [])
  let (body,contentType) ← encodeBody draft
  let url ← requestUrl baseUrl draft.path draft.query
  let protocolHeaders : List (Str × Str) := (Str.lit "accept",Str.lit "application/json") ::
    (contentType.map (fun t => (Str.lit "content-type",t))).toList
  return ⟨tool.operation.method,url,draft.path,draft.query,protocolHeaders ++ draft.headers,body,contentType⟩

end Requests

section Bindings

/-- What a binding reads; an absent argument and `null` count as none. -/
def taken (objects : Objects) (binding : ArgumentBinding) : Option Held :=
  match readPointer objects binding.argumentPointer with
  | none | some (.plain .null) => none
  | some held => some held

theorem placeArgument_none {draft : Draft} {b : ArgumentBinding} (absent : taken draft.objects b = none) :
    placeArgument draft b = .ok draft := by
  unfold taken at absent
  unfold placeArgument
  split at absent
  next => rfl
  next => rfl
  next => cases absent

/-- What is there goes where its binding says. -/
theorem placeArgument_some {draft : Draft} {b : ArgumentBinding} {held : Held} (found : taken draft.objects b = some held) :
    placeArgument draft b = match b.target with
      | .path => placeInPath draft b held
      | .query => do
        let text ← scalarText held.shown b.argumentPointer
        return { draft with query := draft.query ++ [(b.targetName,text)] }
      | .header => do
        let text ← headerValue held.shown b.argumentPointer
        return { draft with headers := draft.headers ++ [(b.targetName,text)] }
      | .body => do
        let objects ← writePointer draft.objects b.targetName held
        return { draft with objects := objects,hasBody := true } := by
  unfold taken at found
  split at found
  next => cases found
  next => cases found
  next given notNull there =>
    obtain rfl := Option.some.inj found
    unfold placeArgument
    rw [there]
    cases given with
    | object place => rfl
    | plain v =>
      cases v with
      | null => exact absurd rfl notNull
      | _ => rfl

/-- Only body bindings write. -/
theorem placeArgument_objects {draft next : Draft} {b : ArgumentBinding} (other : b.target ≠ .body)
    (placed : placeArgument draft b = .ok next) : next.objects = draft.objects := by
  cases found : taken draft.objects b with
  | none =>
    cases (placeArgument_none found).symm.trans placed
    rfl
  | some held =>
    rw [placeArgument_some found] at placed
    cases target : b.target with
    | body => exact absurd target other
    | path =>
      rw [target] at placed
      obtain ⟨_,placed⟩ := refuse_bind_eq_ok.mp placed
      obtain ⟨text,_,placed⟩ := bind_eq_ok.mp placed
      obtain ⟨encoded,_,placed⟩ := bind_eq_ok.mp placed
      cases placed
      rfl
    | query =>
      rw [target] at placed
      obtain ⟨text,_,placed⟩ := bind_eq_ok.mp placed
      cases placed
      rfl
    | header =>
      rw [target] at placed
      obtain ⟨text,_,placed⟩ := bind_eq_ok.mp placed
      cases placed
      rfl

/-- Only path bindings change the path. -/
theorem placeArgument_keeps_path {draft next : Draft} {b : ArgumentBinding} (other : b.target ≠ .path)
    (placed : placeArgument draft b = .ok next) : next.path = draft.path := by
  cases found : taken draft.objects b with
  | none =>
    cases (placeArgument_none found).symm.trans placed
    rfl
  | some held =>
    rw [placeArgument_some found] at placed
    cases target : b.target with
    | path => exact absurd target other
    | body =>
      rw [target] at placed
      obtain ⟨objects,_,placed⟩ := bind_eq_ok.mp placed
      cases placed
      rfl
    | query =>
      rw [target] at placed
      obtain ⟨text,_,placed⟩ := bind_eq_ok.mp placed
      cases placed
      rfl
    | header =>
      rw [target] at placed
      obtain ⟨text,_,placed⟩ := bind_eq_ok.mp placed
      cases placed
      rfl

theorem scalarText_shown (keys : List Str) (value : Value) (pointer : Str) :
    scalarText (Held.of keys value).shown pointer = scalarText value pointer := by
  cases value <;> rfl

end Bindings

end ToolLayer.Policy
