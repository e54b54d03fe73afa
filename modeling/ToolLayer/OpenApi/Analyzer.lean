import ToolLayer.OpenApi.Converter
import ToolLayer.OpenApi.Loader
import ToolLayer.OpenApi.References
import ToolLayer.Python.UrlSplit

/-! A whole description into candidate tools and diagnostics. -/
namespace ToolLayer.OpenApi
open Python Kit Kit.Result

def analyzerVersion : Str := "toollayer-openapi-analyzer/1"

structure Diagnostic where
  code : Str
  message : Str
  pointer : Str := []
  severity : Severity := .error
  operationKey : Option Str := none
  deriving DecidableEq

/-- `ConversionError.as_diagnostic`. -/
def asDiagnostic (e : ConversionError) (operationKey : Option Str := none) : Diagnostic :=
  ⟨e.kind.code.text,e.message,e.pointer,.error,operationKey⟩

section Models

variable [Pydantic]

structure AnalyzedOperation where
  key : Str
  path : Str
  method : HttpMethod
  pointer : Str
  sourceOperation : Dict
  tool : Option ToolDefinition
  diagnostics : List Diagnostic

structure AnalysisResult where
  analyzerVersion : Str
  specVersion : Str
  apiTitle : Str
  apiSummary : Str
  baseUrl : Option Str
  operations : List AnalyzedOperation
  diagnostics : List Diagnostic

def AnalysisResult.tools (result : AnalysisResult) : List ToolDefinition :=
  result.operations.filterMap AnalyzedOperation.tool

end Models

/-- A text member that is more than white space, stripped and cut. -/
def infoText (info : Dict) (field : Str) (limit : Nat) : Option Str := (prose info field).map (List.take limit)

def infoOf (document : Dict) : Dict :=
  match Dict.get document "info" with
  | .dict info => info
  | _ => []

def titleOf (document : Dict) : Str := (infoText (infoOf document) "title" 128).getD "Untitled API"

def summaryOf (document : Dict) : Str :=
  ((infoText (infoOf document) "summary" 1024).or (infoText (infoOf document) "description" 1024)).getD
    "An API registered with the Tool Control Plane."

variable [Unicode]

/-- `_usable_base_url`. -/
def usableBaseUrl (value : Str) : Except PyExc Bool := do
  let parts ← Url.urlsplit value
  return (parts.scheme == Str.lit "http" || parts.scheme == Str.lit "https") && !parts.netloc.isEmpty &&
    decide (CodePoint.ofChar '@' ∉ parts.netloc) && parts.query.isEmpty && parts.fragment.isEmpty

/-- `value.rstrip("/") or value`. -/
def trimSlashes (value : Str) : Str :=
  let trimmed := Str.rstrip (fun c => c == CodePoint.ofChar '/') value
  if trimmed.isEmpty then value else trimmed

def baseUrlMissing (message pointer : Str) : Diagnostic := ⟨"base_url_missing",message,pointer,.warning,none⟩

/-- `_resolve_base_url`. -/
def resolveBaseUrl (document : Dict) (override : Option Str) : Except PyExc (Option Str × List Diagnostic) :=
  match override with
  | some (c::rest) => do
    let usable ← usableBaseUrl (c::rest)
    return if usable then (some (trimSlashes (c::rest)),[])
      else (none,[⟨"invalid_base_url","the supplied base URL is not a plain http or https origin","/servers",.error,none⟩])
  | _ =>
    match Dict.get document "servers" with
    | .list (.dict first::_) =>
      if Dict.has first "variables" then
        .ok (none,[⟨"server_variables_unsupported",
          "the declared server uses template variables; supply an explicit base URL","/servers/0",.warning,none⟩])
      else
        let unusable : Option Str × List Diagnostic := (none,[baseUrlMissing
          "the declared server is not an absolute http or https URL; supply a base URL before publishing"
          "/servers/0/url"])
        match Dict.get first "url" with
        | .str url => do
          let usable ← usableBaseUrl url
          return if usable then (some (trimSlashes url),[]) else unusable
        | _ => .ok unusable
    | .list (_::_) => .error (invalidDocument "'servers' entries must be objects" "/servers/0")
    | _ => .ok (none,[baseUrlMissing "the document declares no server; supply a base URL before publishing" "/servers"])

variable [Pydantic]

/-- An operation without a tool and the diagnostic that says why. -/
def refusedOperation (path : Str) (method : HttpMethod) (pointer : Str) (source : Dict)
    (code message diagnosticPointer : Str) : AnalyzedOperation :=
  let key := operationKey path method.lower
  ⟨key,path,method,pointer,source,none,[⟨code,message,diagnosticPointer,.error,some key⟩]⟩

def toolWarnings (tool : ToolDefinition) (pointer key : Str) : List Diagnostic :=
  (if tool.provenance.descriptionOrigin = .generated then
    [⟨"description_generated",("the source operation has no summary or description, so a placeholder was " ++
      "generated; write a real description before publishing"),pointer,.warning,some key⟩] else []) ++
  (if tool.provenance.deprecated then
    [⟨"operation_deprecated","the source operation is marked deprecated",pointer,.warning,some key⟩] else [])

/-- Tool names claimed so far, with the operation that claimed each. -/
abbrev SeenNames := List (Str × Str)

/-- The part of `_analyze_operation` after conversion: the first claim of a name wins. -/
def acceptTool (path : Str) (method : HttpMethod) (operation : Dict) (pointer : Str) (seen : SeenNames)
    (tool : ToolDefinition) : AnalyzedOperation × SeenNames :=
  let key := operationKey path method.lower
  match Assoc.get tool.toolName seen with
  | some previous =>
    (refusedOperation path method pointer operation "tool_name_collision"
      (Str.lit "this operation normalizes to the same tool name as " ++ previous.repr ++
        Str.lit "; give one of them a distinct operationId") pointer,seen)
  | none =>
    (⟨key,path,method,pointer,operation,some tool,toolWarnings tool pointer key⟩,
      Assoc.set tool.toolName key seen)

/-- `_analyze_operation`. Only a `ConversionError` is caught. -/
def analyzeOperation (path : Str) (method : HttpMethod) (pathItem : Dict) (operation : Value) (pointer : Str)
    (seen : SeenNames) : Except PyExc (AnalyzedOperation × SeenNames) :=
  match operation with
  | .dict members =>
    match convertOperation path method.lower pathItem members with
    | .ok tool => .ok (acceptTool path method members pointer seen tool)
    | .error e =>
      match PyExc.conversion? e with
      | some refused =>
        .ok (refusedOperation path method pointer members refused.kind.code.text refused.message
          (if refused.pointer.isEmpty then pointer else refused.pointer),seen)
      | none => .error e
  | _ => .ok (refusedOperation path method pointer [] "invalid_operation" "an operation must be an object" pointer,seen)

/-- What the loop over paths has gathered. -/
structure Analysis where
  operations : List AnalyzedOperation
  diagnostics : List Diagnostic
  seen : SeenNames
  count : Nat

/-- The inner loop over `SUPPORTED_METHODS`; at the limit it stops with one diagnostic. -/
def analyzeMethods (limits : SourceLimits) (path pathPointer : Str) (pathItem : Dict) :
    Analysis → List HttpMethod → Except PyExc Analysis
  | state,[] => .ok state
  | state,method::rest =>
    match Dict.get pathItem method.lower with
    | .null => analyzeMethods limits path pathPointer pathItem state rest
    | operation =>
      if limits.maxOperations ≤ state.count then
        .ok { state with diagnostics := state.diagnostics ++ [⟨"operation_limit_exceeded",
          Str.lit "only the first " ++ Decimal.natural limits.maxOperations ++ Str.lit " operations are analyzed",
          pathPointer,.error,none⟩] }
      else
        match analyzeOperation path method pathItem operation (childPointer pathPointer method.lower) state.seen with
        | .error e => .error e
        | .ok (analyzed,seen) =>
          analyzeMethods limits path pathPointer pathItem
            ⟨state.operations ++ [analyzed],state.diagnostics,seen,state.count + 1⟩ rest

/-- `_HTTP_METHODS - set(SUPPORTED_METHODS)`, sorted. -/
def unsupportedMethods : List (Str × Str) :=
  [(Str.lit "head",Str.lit "HEAD"),(Str.lit "options",Str.lit "OPTIONS"),(Str.lit "trace",Str.lit "TRACE")]

def unsupportedMethodWarnings (path pathPointer : Str) (pathItem : Dict) : List Diagnostic :=
  (unsupportedMethods.filter (fun m => Dict.has pathItem m.1)).map (fun m =>
    ⟨"unsupported_method",Str.lit "the " ++ m.2 ++ Str.lit " method is not converted into a tool",
      childPointer pathPointer m.1,.warning,some (operationKey path m.1)⟩)

def pathPointerOf (path : Str) : Str := Str.lit "/paths/" ++ escape path

/-- One round of the loop over the sorted paths. -/
def analyzePath (limits : SourceLimits) (document : Dict) (state : Analysis) (entry : Str × Value) :
    Except PyExc Analysis :=
  let path := entry.1
  let pathPointer := pathPointerOf path
  let note (d : Diagnostic) : Analysis := { state with diagnostics := state.diagnostics ++ [d] }
  if !Str.startsWith path "/" then
    .ok (note ⟨"invalid_path","a path key must be a string beginning with '/'",pathPointer,.error,none⟩)
  else match entry.2 with
    | .dict raw =>
      match resolve document (.dict raw) pathPointer with
      | .error e =>
        match PyExc.conversion? e with
        | some refused => .ok (note (asDiagnostic refused))
        | none => .error e
      | .ok (.dict pathItem) => do
        let analyzed ← analyzeMethods limits path pathPointer pathItem state supportedMethods
        return { analyzed with
          diagnostics := analyzed.diagnostics ++ unsupportedMethodWarnings path pathPointer pathItem }
      -- A reference may resolve to something that has no `get`.
      | .ok _ => .error .attributeError
    | _ => .ok (note ⟨"invalid_path_item","a path item must be an object",pathPointer,.error,none⟩)

def sortedPaths (paths : Dict) : Dict := paths.insertionSort Value.keyLe

def analyzeDocument (limits : SourceLimits) (loaded : LoadedDocument) (baseUrlOverride : Option Str) :
    Except PyExc AnalysisResult := do
  let (baseUrl,baseUrlDiagnostics) ← resolveBaseUrl loaded.document baseUrlOverride
  let state ← loop (analyzePath limits loaded.document) ⟨[],baseUrlDiagnostics,[],0⟩ (sortedPaths loaded.paths)
  let diagnostics := if state.operations.isEmpty then
      state.diagnostics ++ [⟨"no_convertible_operations",
        "the document contains no operation this converter can turn into a tool","/paths",.error,none⟩]
    else state.diagnostics
  return ⟨analyzerVersion,loaded.specVersion,titleOf loaded.document,summaryOf loaded.document,baseUrl,
    state.operations,diagnostics⟩

end ToolLayer.OpenApi
