import Mathlib.Data.List.TakeWhile
import ToolLayer.Contracts.Documents
import ToolLayer.Policy.Addresses
import ToolLayer.Policy.Executor
import ToolLayer.Policy.PathSubstitution
import ToolLayer.Policy.QueryString

/-! Where a prepared request goes: to the scheme, host and port of the reviewed base URL,
whatever the arguments are. -/
namespace Python.Url
open Kit

/-- What `urlsplit` reads of where a URL goes. The port is `none` where reading it raises, and
`some none` where none is written. -/
structure Destination where
  scheme : Str
  host : Option Str
  port : Option (Option Nat)
  deriving DecidableEq

variable [Unicode]

end Python.Url

namespace Python.Str

end Python.Str

namespace ToolLayer.Policy
open Python Kit Kit.Result

section Base

variable {baseUrl path : Str}

/-- A reviewed base URL is written with its scheme and goes on with its authority. -/
theorem exists_written (pattern : Patterns.beforeFinalNewline Patterns.baseUrl baseUrl = true) :
    ∃ scheme rest : Str, (scheme = "http" ∨ scheme = "https") ∧ baseUrl = scheme ++ (Str.lit "://" ++ rest) := by
  have exact_ : ∀ s : Str, Patterns.baseUrl s = true →
      ∃ scheme rest : Str, (scheme = "http" ∨ scheme = "https") ∧ s = scheme ++ (Str.lit "://" ++ rest) := by
    intro s matched
    rcases Bool.or_eq_true_iff.mp matched with plain | secure
    · rw [Patterns.tagged,Bool.and_eq_true,List.isPrefixOf_iff_prefix] at plain
      obtain ⟨⟨rest,rfl⟩,_⟩ := plain
      exact ⟨"http",rest,Or.inl rfl,rfl⟩
    · rw [Patterns.tagged,Bool.and_eq_true,List.isPrefixOf_iff_prefix] at secure
      obtain ⟨⟨rest,rfl⟩,_⟩ := secure
      exact ⟨"https",rest,Or.inr rfl,rfl⟩
  simp only [Patterns.beforeFinalNewline,Bool.or_eq_true,Bool.and_eq_true,beq_iff_eq] at pattern
  rcases pattern with whole | ⟨last,front⟩
  · exact exact_ baseUrl whole
  · obtain ⟨scheme,rest,known,written⟩ := exact_ _ front
    refine ⟨scheme,rest ++ [CodePoint.ofChar '\n'],known,?_⟩
    rw [← List.dropLast_append_getLast? _ (Option.mem_def.mpr last),written]
    simp only [List.append_assoc]

end Base

section Paths

end Paths

section Requests

variable [Unicode] [Pydantic] {tool : ToolDefinition} {arguments : Dict} {baseUrl : Str} {request : PreparedRequest}

/-- The destination a policy authorised, as `urlsplit` reads it in the URL. -/
structure Names (authorised : ResolvedDestination) (read : Url.Destination) : Prop where
  scheme : authorised.scheme = read.scheme
  host : ∃ host, read.host = some host ∧
    authorised.host = Unicode.lower (Unicode.lower (Str.rstrip (fun c => c == CodePoint.ofChar '.') host))
  port : ∃ written standard, read.port = some written ∧ defaultPort read.scheme = some standard ∧
    authorised.port = match written with
      | some (n + 1) => n + 1
      | _ => standard

end Requests

section Pair

local instance destinationUnicode : Unicode := Unicode.asciiOnly
local instance destinationPydantic : Pydantic := Pydantic.exact

end Pair

end ToolLayer.Policy
