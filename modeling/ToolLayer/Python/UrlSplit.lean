import ToolLayer.Python.Exceptions
import ToolLayer.Python.Ip
import ToolLayer.Python.Unicode

/-! `urllib.parse.urlsplit` and the host and port of its result. -/
namespace Python.Url

structure SplitResult where
  scheme : Str
  netloc : Str
  path : Str
  query : Str
  fragment : Str
  deriving DecidableEq

def c0OrSpace (c : CodePoint) : Bool := decide (c.val ≤ 0x20)

/-- Tab, carriage return and line feed are removed wherever they stand. -/
def withoutUnsafe (s : Str) : Str := s.filter (fun c => !(c.val == 0x09 || c.val == 0x0A || c.val == 0x0D))

def schemePoint (c : CodePoint) : Bool := c.isAlnum || c == '+' || c == '-' || c == '.'

def splitScheme (url : Str) : Str × Str :=
  match Str.partition ':' url with
  | (c::rest,true,after) =>
    if c.isAlpha && rest.all schemePoint then ((c::rest).map CodePoint.asciiLower,after) else ([],url)
  | _ => ([],url)

def endsNetloc (c : CodePoint) : Bool := c == '/' || c == '?' || c == '#'

/-- The authority after `//`, and what follows it. -/
def splitNetloc (url : Str) : Str × Str :=
  match url with
  | a::b::rest =>
    if a = '/' ∧ b = '/' then (rest.takeWhile (fun c => !endsNetloc c),rest.dropWhile (fun c => !endsNetloc c))
    else ([],url)
  | _ => ([],url)

/-- `_check_bracketed_host`. -/
def bracketedHost (host : Str) : Bool :=
  match host with
  | c::rest =>
    if c = 'v' then
      let digits := rest.takeWhile (fun d => (Ip.hexValue? d).isSome)
      match rest.dropWhile (fun d => (Ip.hexValue? d).isSome) with
      | dot::d::tail => !digits.isEmpty && dot == '.' && d != '\n' && tail.all (fun e => e != '\n')
      | _ => false
    else match Ip.address? host with
      | some (.v6 _) => true
      | _ => false
  | [] => false

def hostAndPort (netloc : Str) : Str :=
  let (_,_,after) := Str.rpartition '@' netloc
  after

/-- `_check_bracketed_netloc`. -/
def bracketedNetloc (netloc : Str) : Bool :=
  match Str.partition '[' (hostAndPort netloc) with
  | (before,true,bracketed) =>
    let (host,_,port) := Str.partition ']' bracketed
    before.isEmpty && (port.isEmpty || Str.startsWith port ":") && bracketedHost host
  | (plain,false,_) => bracketedHost (Str.partition ':' plain).1

/-- `_userinfo`: the name and the password before the last `@`. -/
def userinfo (netloc : Str) : Option Str × Option Str :=
  match Str.rpartition '@' netloc with
  | (before,true,_) =>
    let (name,found,password) := Str.partition ':' before
    (some name,if found then some password else none)
  | (_,false,_) => (none,none)

/-- `_hostinfo`: the host, and the port if one is written. -/
def hostinfo (netloc : Str) : Str × Option Str :=
  let (plain,port) := match Str.partition '[' (hostAndPort netloc) with
    | (_,true,bracketed) =>
      let (host,_,after) := Str.partition ']' bracketed
      (host,(Str.partition ':' after).2.2)
    | (whole,false,_) =>
      let (host,_,port) := Str.partition ':' whole
      (host,port)
  (plain,if port.isEmpty then none else some port)

/-- `.port`; the outer `none` is `ValueError`. -/
def port (netloc : Str) : Option (Option Nat) :=
  match (hostinfo netloc).2 with
  | none => some none
  | some digits =>
    if digits.all CodePoint.isDigit && decide (digits.length ≤ Decimal.maxDigits) &&
        decide (Str.digitsValue digits ≤ 65535) then some (some (Str.digitsValue digits))
    else none

/-- `uses_netloc`. -/
def usesNetloc : List Str := ["","ftp","http","gopher","nntp","telnet","imap","wais","file","mms","https","shttp","snews",
  "prospero","rtsp","rtsps","rtspu","rsync","svn","svn+ssh","sftp","nfs","git","git+ssh","ws","wss","itms-services"]

/-- The authority and the path as they are put together. -/
def hierarchical (scheme netloc path : Str) : Str :=
  if !netloc.isEmpty then
    Str.lit "//" ++ netloc ++ (if path.isEmpty || Str.startsWith path "/" then path else CodePoint.ofChar '/' :: path)
  else if Str.startsWith path "//" then Str.lit "//" ++ path
  else if !scheme.isEmpty && usesNetloc.contains scheme && (path.isEmpty || Str.startsWith path "/") then Str.lit "//" ++ path
  else path

/-- `urlunsplit`. -/
def urlunsplit (parts : SplitResult) : Str :=
  (if parts.scheme.isEmpty then [] else parts.scheme ++ [CodePoint.ofChar ':']) ++
    hierarchical parts.scheme parts.netloc parts.path ++
    (if parts.query.isEmpty then [] else CodePoint.ofChar '?' :: parts.query) ++
    (if parts.fragment.isEmpty then [] else CodePoint.ofChar '#' :: parts.fragment)

variable [Unicode]

/-- `.hostname`, in lower case up to a zone. -/
def hostname (netloc : Str) : Option Str :=
  match (hostinfo netloc).1 with
  | [] => none
  | c::rest =>
    let (name,found,zone) := Str.partition '%' (c::rest)
    some (Unicode.lower name ++ if found then CodePoint.ofChar '%' :: zone else [])

/-- `_checknetloc`: no separator may appear only under NFKC. -/
def normalizedNetloc (netloc : Str) : Bool :=
  netloc.all CodePoint.isAscii ||
    let kept : Str := netloc.filter (fun c : CodePoint => !(c == '@' || c == ':' || c == '#' || c == '?'))
    let normal : Str := Unicode.nfkc kept
    kept == normal || !normal.any (fun c : CodePoint => c == '/' || c == '?' || c == '#' || c == '@' || c == ':')

def acceptableNetloc (netloc : Str) : Bool :=
  let opens := decide (CodePoint.ofChar '[' ∈ netloc)
  let closes := decide (CodePoint.ofChar ']' ∈ netloc)
  opens == closes && (!opens || bracketedNetloc netloc) && normalizedNetloc netloc

/-- The five components, before any of the checks that may raise. -/
def components (url : Str) : SplitResult :=
  let cleaned := withoutUnsafe (Str.lstrip c0OrSpace url)
  let (scheme,rest) := splitScheme cleaned
  let (netloc,rest) := splitNetloc rest
  let (rest,_,fragment) := Str.partition '#' rest
  let (path,_,query) := Str.partition '?' rest
  ⟨scheme,netloc,path,query,fragment⟩

/-- Whether `urlsplit` returns; otherwise it raises `ValueError`. -/
def splittable (url : Str) : Bool := acceptableNetloc (components url).netloc

def urlsplit {E : Type} (url : Str) : Except (Exc E) SplitResult :=
  if splittable url then .ok (components url) else .error .valueError

theorem urlsplit_eq_ok {E : Type} {url : Str} {parts : SplitResult} :
    (urlsplit url : Except (Exc E) SplitResult) = .ok parts ↔ splittable url = true ∧ components url = parts := by
  unfold urlsplit
  split
  next accepted => simp [accepted]
  next refused => simp [refused]

end Python.Url
