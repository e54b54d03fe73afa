import ToolLayer.OpenApi.SchemaConversion
import ToolLayer.Python.Distinct
import ToolLayer.Python.Sha256

/-! Ingesting an uploaded description: size, encoding, format and shape. The JSON
and YAML parsers are parameters. -/
namespace ToolLayer.OpenApi
open Python Kit Kit.Result

structure SourceLimits where
  maxBytes : Nat := 2 * 1024 * 1024
  maxDepth : Nat := 64
  maxNodes : Nat := 200000
  maxOperations : Nat := 256

inductive SourceFormat where
  | json
  | yaml
  deriving DecidableEq

def SourceFormat.text : SourceFormat → Str
  | .json => "json"
  | .yaml => "yaml"

/-- What a parser returns is made of Python dictionaries. -/
structure Parsed where
  value : Value
  distinct : value.distinct = true

/-- `_parse_json` and `_parse_yaml`. -/
structure Parsers where
  json : Str → Except PyExc Parsed
  yaml : Str → Except PyExc Parsed

/-- A parsed description. The loader let no other root and no other `paths` through. -/
structure LoadedDocument where
  document : Dict
  specVersion : Str
  filename : Str
  digest : Str
  byteLength : Nat
  sourceFormat : SourceFormat
  paths : Dict
  hasPaths : Dict.get document "paths" = .dict paths
  distinct : Value.distinct (.dict document) = true

/-- A code point of the given width read from continuation bytes. -/
def continuation (low : Nat) (lead : Nat) : List Byte → Option CodePoint
  | bytes =>
    let n := bytes.foldl (fun n b => n * 64 + (b.val - 0x80)) lead
    if bytes.all (fun b => decide (0x80 ≤ b.val) && decide (b.val < 0xC0)) && decide (low ≤ n) &&
        !decide (0xD800 ≤ n ∧ n ≤ 0xDFFF) then
      if inRange : n < 0x110000 then some ⟨n,inRange⟩ else none
    else none

/-- `raw.decode("utf-8")`; `none` is `UnicodeDecodeError`. -/
def decodeUtf8 : Bytes → Option Str
  | [] => some []
  | a::rest =>
    if a.val < 0x80 then (decodeUtf8 rest).map (a.castLE bytes_le_codePoints :: ·)
    else if a.val < 0xC0 then none
    else if a.val < 0xE0 then
      match rest with
      | b::tail => do
        let c ← continuation 0x80 (a.val - 0xC0) [b]
        let s ← decodeUtf8 tail
        return c :: s
      | _ => none
    else if a.val < 0xF0 then
      match rest with
      | b::c::tail => do
        let d ← continuation 0x800 (a.val - 0xE0) [b,c]
        let s ← decodeUtf8 tail
        return d :: s
      | _ => none
    else if a.val < 0xF8 then
      match rest with
      | b::c::d::tail => do
        let e ← continuation 0x10000 (a.val - 0xF0) [b,c,d]
        let s ← decodeUtf8 tail
        return e :: s
      | _ => none
    else none

def tooLarge (message : Str) : PyExc := .own (.conversion ⟨.documentTooLarge,message,[]⟩)

/-- One popped node of `_enforce_shape`: its children go on the stack, the last one on top. -/
def shapeStep (limits : SourceLimits) (depth : Nat) (node : Value) (stack : List (Value × Nat)) :
    Except PyExc (List (Value × Nat)) := do
  refuse (decide (limits.maxDepth < depth)) (tooLarge "the document nests too deeply")
  match node with
  | .dict members => return (members.map (fun m => (m.2,depth + 1))).reverse ++ stack
  | .list items => return (items.map (fun item => (item,depth + 1))).reverse ++ stack
  | .float x =>
    match x.number with
    | .finite _ _ => return stack
    | _ => throw (invalidDocument "the document contains a non-finite number")
  | _ => return stack

/-- `_enforce_shape`; `left` is how many more nodes may be popped. -/
def enforceShape (limits : SourceLimits) : Nat → List (Value × Nat) → Except PyExc Unit
  | _,[] => .ok ()
  | 0,_::_ => .error (tooLarge "the document contains too many nodes")
  | left + 1,(node,depth)::stack =>
    match shapeStep limits depth node stack with
    | .ok next => enforceShape limits left next
    | .error e => .error e

def byteOrderMark : Bytes := [Utf8.byte 0xEF,Utf8.byte 0xBB,Utf8.byte 0xBF]

def parseSource (parsers : Parsers) (text : Str) : Except PyExc (Parsed × SourceFormat) := do
  let stripped := Str.lstrip CodePoint.isSpace text
  if Str.startsWith stripped "\x7b" || Str.startsWith stripped "[" then
    let document ← parsers.json text
    return (document,.json)
  else
    let document ← parsers.yaml text
    return (document,.yaml)

def specVersionOf (document : Dict) : Except PyExc Str :=
  match Dict.get document "openapi" with
  | .str (c::rest) =>
    if Str.startsWith (c::rest) "3." then .ok (c::rest)
    else .error (invalidDocument "only OpenAPI 3.x documents are supported" "/openapi")
  | _ => .error (invalidDocument "the document must declare a string 'openapi' version" "/openapi")

def checkSource (limits : SourceLimits) (raw : Bytes) : Except PyExc Str := do
  refuse raw.isEmpty (invalidDocument "the uploaded document is empty")
  refuse (decide (limits.maxBytes < raw.length)) (tooLarge (Str.lit "the uploaded document exceeds the " ++
    Decimal.natural limits.maxBytes ++ Str.lit " byte ingestion limit"))
  refuse (byteOrderMark.isPrefixOf raw)
    (invalidDocument "the uploaded document starts with a UTF-8 byte order mark")
  match decodeUtf8 raw with
  | some text => return text
  | none => throw (invalidDocument "the uploaded document is not valid UTF-8")

def loadDocument (parsers : Parsers) (limits : SourceLimits) (raw : Bytes) (filename : Str) :
    Except PyExc LoadedDocument := do
  let text ← checkSource limits raw
  let (parsed,sourceFormat) ← parseSource parsers text
  match parsed with
  | ⟨.dict document,distinct⟩ =>
    enforceShape limits limits.maxNodes [(.dict document,0)]
    let specVersion ← specVersionOf document
    match found : Dict.get document "paths" with
    | .dict paths =>
      return ⟨document,specVersion,filename,Str.lit "sha256:" ++ Sha256.hexdigest raw,raw.length,
        sourceFormat,paths,found,distinct⟩
    | _ => throw (invalidDocument "the document must declare a 'paths' object" "/paths")
  | _ => throw (invalidDocument "the document root must be an object")

end ToolLayer.OpenApi
