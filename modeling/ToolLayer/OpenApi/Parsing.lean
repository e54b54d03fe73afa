import ToolLayer.OpenApi.Loader

/-! `_parse_json` and `_parse_yaml` over the libraries they call, and which uploads end in
an exception the loader does not know. -/
namespace ToolLayer.OpenApi
open Python Kit Kit.Result

/-- The calls into `json` and PyYAML, with this module's hooks. -/
structure Libraries where
  /-- `json.loads(text, object_pairs_hook=…, parse_constant=…)`. -/
  jsonLoads : Str → Except PyExc Parsed
  /-- `_NoDuplicateKeyLoader(text)`. -/
  yamlLoader : Str → Except PyExc Unit
  /-- `loader.get_single_data()`; `none` has a mapping with a key that is no text. -/
  yamlData : Str → Except PyExc (Option Parsed)

def isInvalidDocument : PyExc → Bool
  | .own (.conversion e) => e.kind = .invalidDocument
  | _ => false

def parseJson (libraries : Libraries) (text : Str) : Except PyExc Parsed :=
  match libraries.jsonLoads text with
  | .ok parsed => .ok parsed
  | .error e =>
    if isInvalidDocument e then .error e
    else if e.isValueError Failure.isValueError then
      .error (invalidDocument "the document is not well-formed JSON")
    else .error e

/-- The loader is constructed outside the `try`. The check of the keys is the one
`_enforce_shape` makes, which no tree of this model needs. -/
def parseYaml (libraries : Libraries) (text : Str) : Except PyExc Parsed := do
  libraries.yamlLoader text
  match libraries.yamlData text with
  | .ok (some parsed) => .ok parsed
  | .ok none => .error (invalidDocument "object keys must be strings")
  | .error e =>
    if isInvalidDocument e then .error e
    else if e = .recursionError then .error (tooLarge "the document nests too deeply")
    else if e = .yamlError then .error (invalidDocument "the document is not well-formed YAML")
    else .error e

def Libraries.parsers (libraries : Libraries) : Parsers := ⟨parseJson libraries,parseYaml libraries⟩

/-- The exceptions the libraries and the hooks are documented to raise. -/
structure Libraries.Documented (libraries : Libraries) : Prop where
  json : ∀ text, Only (fun e => isInvalidDocument e = true ∨ e = .valueError ∨ e = .recursionError)
    (libraries.jsonLoads text)
  loader : ∀ text, Only (fun e => e = .yamlError) (libraries.yamlLoader text)
  data : ∀ text, Only (fun e => isInvalidDocument e = true ∨ e = .yamlError ∨ e = .recursionError ∨ e = .valueError)
    (libraries.yamlData text)

def IsConversionError (e : PyExc) : Prop := ∃ c, e = .own (.conversion c)

theorem isConversionError_invalid (message pointer : Str) : IsConversionError (invalidDocument message pointer) := ⟨_,rfl⟩

theorem isConversionError_tooLarge (message : Str) : IsConversionError (tooLarge message) := ⟨_,rfl⟩

variable {libraries : Libraries}

def looksLikeJson (text : Str) : Bool :=
  Str.startsWith (Str.lstrip CodePoint.isSpace text) "\x7b" || Str.startsWith (Str.lstrip CodePoint.isSpace text) "["

section Unprintable

end Unprintable

end ToolLayer.OpenApi
