import ToolLayer.Python.Text
import ToolLayer.Python.Value

/-! The regular expressions of the contracts. A schema's `$` also matches before
a final line break, as Python's `re` reads it; a model's `$` does not. -/
namespace ToolLayer.Patterns
open Python

/-- `$` as `re` reads it: the pattern may be followed by one line break. -/
def beforeFinalNewline (exact : Str → Bool) (s : Str) : Bool :=
  exact s || (s.getLast? == some (CodePoint.ofChar '\n') && exact s.dropLast)

theorem beforeFinalNewline_of_exact {exact : Str → Bool} {s : Str} (matched : exact s = true) :
    beforeFinalNewline exact s = true := by simp [beforeFinalNewline,matched]

theorem scalar_beforeFinalNewline {exact : Str → Bool} (plain : ∀ s, exact s = true → s.scalar = true) {s : Str}
    (matched : beforeFinalNewline exact s = true) : s.scalar = true := by
  simp only [beforeFinalNewline,Bool.or_eq_true,Bool.and_eq_true,beq_iff_eq] at matched
  rcases matched with whole | ⟨last,front⟩
  · exact plain s whole
  · rw [← List.dropLast_append_getLast? _ (Option.mem_def.mpr last),Str.scalar_append,plain _ front]
    decide

/-- `0|[1-9][0-9]*`. -/
def numericIdentifier (s : Str) : Bool :=
  match s with
  | [] => false
  | c::rest => s.all CodePoint.isDigit && (rest.isEmpty || c != '0')

def identifierPoint (c : CodePoint) : Bool := c.isAlnum || c == '-'

/-- `(major, minor, patch, prerelease)` of a semantic version without build metadata. -/
def semverParts (s : Str) : Option (Str × Str × Str × Option Str) :=
  let (core,tagged,prerelease) := Str.partition '-' s
  match Str.split core '.' with
  | [major,minor,patch] =>
    if numericIdentifier major && numericIdentifier minor && numericIdentifier patch &&
        (!tagged || (Str.split prerelease '.').all (fun p => !p.isEmpty && p.all identifierPoint)) then
      some (major,minor,patch,if tagged then some prerelease else none)
    else none
  | _ => none

/-- `SEMVER_PATTERN`. -/
def semver (s : Str) : Bool := (semverParts s).isSome

def lowerAlnum (c : CodePoint) : Bool := c.isLower || c.isDigit

/-- `KEY_PATTERN`. -/
def key (s : Str) : Bool :=
  (s.head?.any CodePoint.isLower) && (Str.split s '-').all (fun p => !p.isEmpty && p.all lowerAlnum)

/-- `TOOL_NAME_PATTERN`. -/
def toolName (s : Str) : Bool :=
  s.head?.any CodePoint.isLower && s.all (fun c => lowerAlnum c || c == '_')

/-- `(?:[^~/]|~[01])*`, continued by further tokens. -/
def pointerTokens : Str → Bool
  | [] => true
  | c::rest =>
    if c = '~' then match rest with
      | d::tail => (d == '0' || d == '1') && pointerTokens tail
      | [] => false
    else pointerTokens rest

/-- `JSON_POINTER_PATTERN`. -/
def jsonPointer (s : Str) : Bool := (s.isEmpty || s.head? == some (CodePoint.ofChar '/')) && pointerTokens s

def hexadecimal (length : Nat) (s : Str) : Bool := decide (s.length = length) && s.all CodePoint.isHex

def tagged (tag : Str) (rest : Str → Bool) (s : Str) : Bool :=
  tag.isPrefixOf s && rest (s.drop tag.length)

theorem scalar_tagged_hexadecimal {tag : Str} {length : Nat} (plain : tag.scalar = true) {s : Str}
    (matched : tagged tag (hexadecimal length) s = true) : s.scalar = true := by
  rw [tagged,Bool.and_eq_true,List.isPrefixOf_iff_prefix] at matched
  obtain ⟨⟨rest,rfl⟩,digits⟩ := matched
  rw [List.drop_left,hexadecimal,Bool.and_eq_true,List.all_eq_true] at digits
  rw [Str.scalar_append,plain,Bool.true_and,Str.scalar,List.all_eq_true]
  intro c member
  have hex := digits.2 c member
  simp only [CodePoint.isHex,CodePoint.isDigit,CodePoint.between,Bool.or_eq_true,Bool.and_eq_true,
    decide_eq_true_eq] at hex
  simp only [CodePoint.isSurrogate,CodePoint.between,Bool.not_eq_true',Bool.and_eq_false_iff,decide_eq_false_iff_not]
  omega

/-- `DIGEST_PATTERN`. -/
def digest (s : Str) : Bool := tagged "sha256:" (hexadecimal 64) s

/-- `^snap_[0-9a-f]{32}$`. -/
def snapshotId (s : Str) : Bool := tagged "snap_" (hexadecimal 32) s

/-- `^[a-z0-9][a-z0-9._-]{0,62}[a-z0-9]$`. -/
def keyId (s : Str) : Bool :=
  decide (2 ≤ s.length) && decide (s.length ≤ 64) && s.head?.any lowerAlnum && s.getLast?.any lowerAlnum &&
    s.all (fun c => lowerAlnum c || c == '.' || c == '_' || c == '-')

/-- `^[A-Za-z0-9_-]{86}$`. -/
def signatureValue (s : Str) : Bool :=
  decide (s.length = 86) && s.all (fun c => c.isAlnum || c == '_' || c == '-')

/-- `\s` of the models' regular expressions (the Unicode `White_Space` property). -/
def whiteSpace (c : CodePoint) : Bool := c.isSpace && !c.between 0x1C 0x1F

/-- `^/(?:[^/?#\s][^?#\s]*)?$`, for the given reading of `\s`. -/
def pathTemplate (space : CodePoint → Bool) (s : Str) : Bool :=
  match s with
  | c::rest =>
    c == '/' && !rest.head?.any (· == CodePoint.ofChar '/') && rest.all (fun d => d != '?' && d != '#' && !space d)
  | [] => false

end ToolLayer.Patterns
