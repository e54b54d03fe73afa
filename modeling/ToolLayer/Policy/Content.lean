import ToolLayer.Policy.Executor
import ToolLayer.Python.JsonParse
import ToolLayer.Python.Utf8Decoding

/-! What the upstream's body is decoded to, and when it can be rendered again. -/
namespace ToolLayer.Policy
open Python Kit Kit.Result

section Strict

variable [Unicode] {loads : Str → Except PyExc Value} {body : Bytes} {headers : List (Str × Str)}

end Strict

section Samples

local instance contentUnicode : Unicode := Unicode.asciiOnly

end Samples

end ToolLayer.Policy
