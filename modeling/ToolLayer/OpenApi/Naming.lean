import ToolLayer.Contracts.Errors
import ToolLayer.Contracts.ToolModel
import ToolLayer.Python.Sha256

/-! Tool names from operation identifiers and from paths. -/
namespace ToolLayer.OpenApi
open Python

def maxToolNameLength : Nat := 64

/-- `_CAMEL_BOUNDARY.sub("_", …)`; `previous` is the code point before the rest. -/
def camelBoundaries (previous : Option CodePoint) : Str → Str
  | [] => []
  | c::rest =>
    if previous.any (fun p => p.isLower || p.isDigit) && c.isUpper then
      CodePoint.ofChar '_' :: c :: camelBoundaries (some c) rest
    else c :: camelBoundaries (some c) rest

/-- `_ACRONYM_BOUNDARY.sub("_", …)`. -/
def acronymBoundaries (previous : Option CodePoint) : Str → Str
  | [] => []
  | c::rest =>
    if previous.any CodePoint.isUpper && c.isUpper && rest.head?.any CodePoint.isLower then
      CodePoint.ofChar '_' :: c :: acronymBoundaries (some c) rest
    else c :: acronymBoundaries (some c) rest

/-- `_NON_IDENTIFIER.sub("_", …)`: one underscore for each maximal run. -/
def collapse (inRun : Bool) : Str → Str
  | [] => []
  | c::rest =>
    if c.isAlnum then c :: collapse false rest
    else if inRun then collapse true rest
    else CodePoint.ofChar '_' :: collapse true rest

def isUnderscore (c : CodePoint) : Bool := c == '_'

/-- `_snake_case`. After the collapse only ASCII is left to lower. -/
def snakeCase (value : Str) : Str :=
  let spaced := acronymBoundaries none (camelBoundaries none value)
  (Str.rstrip isUnderscore (Str.lstrip isUnderscore (collapse false spaced))).map CodePoint.asciiLower

/-- `_bounded`: a long name keeps a prefix and a digest of all of it. -/
def bounded (candidate : Str) : Str :=
  if candidate.length ≤ maxToolNameLength then candidate
  else
    let suffix := (Sha256.hexdigest (Utf8.bytes candidate)).take 10
    let keep := maxToolNameLength - suffix.length - 1
    Str.rstrip isUnderscore (candidate.take keep) ++ CodePoint.ofChar '_' :: suffix

def normalizeToolName (value : Str) : Except PyExc Str :=
  match snakeCase value with
  | [] => .error .valueError
  | c::rest => .ok (bounded (if c.isDigit then Str.lit "op_" ++ c::rest else c::rest))

/-- `_METHOD_VERB`. -/
def methodVerb : HttpMethod → Str
  | .get => "get"
  | .post => "create"
  | .put => "replace"
  | .patch => "update"
  | .delete => "delete"

variable [Unicode]

/-- `re.fullmatch(r"v\d+[a-z0-9]*", segment.lower())`. -/
def versionSegment (segment : Str) : Bool :=
  match Unicode.lower segment with
  | c::d::rest => c == 'v' && Unicode.decimal d && (rest.dropWhile Unicode.decimal).all Patterns.lowerAlnum
  | _ => false

def nameOrNothing (normalized : Str) : List Str := if normalized.isEmpty then [] else [normalized]

def segmentWords (segment : Str) : List Str :=
  if Str.startsWith segment "\x7b" && Str.endsWith segment "\x7d" then
    match nameOrNothing (snakeCase (segment.drop 1).dropLast) with
    | [] => []
    | words => Str.lit "by" :: words
  else nameOrNothing (snakeCase segment)

/-- `path.strip("/").split("/")` without the empty pieces. -/
def rawSegments (path : Str) : List Str :=
  let slash := fun c => c == CodePoint.ofChar '/'
  (Str.split (Str.rstrip slash (Str.lstrip slash path)) '/').filter (fun s => !s.isEmpty)

def pathWords (path : Str) : List Str :=
  match rawSegments path with
  | [] => []
  | first::rest => (if versionSegment first then [] else segmentWords first) ++ rest.flatMap segmentWords

def deriveToolName (method : HttpMethod) (path : Str) : Str :=
  match pathWords path with
  | [] => bounded (methodVerb method ++ "_root")
  | words => bounded (methodVerb method ++ CodePoint.ofChar '_' :: Str.join "_" words)


def asciiUpper (c : CodePoint) : CodePoint := if c.isLower then Fin.ofNat _ (c.val - 0x20) else c

/-- `str.capitalize` on a word of a tool name, which is ASCII. -/
def capitalize : Str → Str
  | [] => []
  | c::rest => asciiUpper c :: rest.map CodePoint.asciiLower

def toDisplayName (toolName : Str) : Str :=
  match (Str.split toolName '_').filter (fun w => !w.isEmpty) with
  | [] => toolName
  | first::rest => Str.join " " (capitalize first :: rest)

end ToolLayer.OpenApi
