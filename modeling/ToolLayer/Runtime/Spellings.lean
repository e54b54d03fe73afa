import ToolLayer.Python.Spellings
import ToolLayer.Runtime.Identity

/-! Which spellings the key material decoder takes for one value. -/
namespace ToolLayer.Runtime
open Python Kit Kit.Result

section Signatures

variable [Unicode] (scheme : Ed25519)

end Signatures

end ToolLayer.Runtime
