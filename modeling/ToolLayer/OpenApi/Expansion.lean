import ToolLayer.OpenApi.Analyzer
import ToolLayer.OpenApi.Resolution

/-! How large a resolved tree is: as large as the references of the document unfold. -/
namespace ToolLayer.OpenApi
open Python Kit Kit.Result

mutual
/-- The nodes of a tree, counted as `_enforce_shape` counts them. -/
def nodes : Value → Nat
  | .list items => nodesList items + 1
  | .dict members => nodesMembers members + 1
  | _ => 1
def nodesList : List Value → Nat
  | [] => 0
  | item::rest => nodes item + nodesList rest
def nodesMembers : Dict → Nat
  | [] => 0
  | (_,value)::rest => nodes value + nodesMembers rest
end

/-- The size of a tree, by entry where it is an object. -/
inductive Shape where
  | object (entries : List (Str × Nat))
  | other (size : Nat)

def Shape.size : Shape → Nat
  | .object entries => (entries.map Prod.snd).sum + 1
  | .other size => size

section Unfolding

variable [Unicode] (document : Dict)

variable {document}

end Unfolding

section Nested

local instance expansionUnicode : Unicode := Unicode.asciiOnly

end Nested

end ToolLayer.OpenApi
