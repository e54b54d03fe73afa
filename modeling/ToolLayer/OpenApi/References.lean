import ToolLayer.Contracts.Schema
import ToolLayer.Kit.Result

/-! Same-document references, inlined under a depth limit and a cycle check. -/
namespace ToolLayer.OpenApi
open Python Kit Kit.Result

def maxResolutionDepth : Nat := 32

def referencePointer (reference : Value) (pointer : Str) : Except PyExc Str :=
  match reference with
  | .str (c::rest) =>
    if Str.startsWith (c::rest) "#/" then .ok rest
    else .error (unsupportedFeature "only same-document references of the form '#/...' are supported" pointer)
  | _ => .error (invalidDocument "a $ref value must be a non-empty string" pointer)

variable [Unicode]

/-- One step of `_dereference`. -/
def descend (origin : Str) (current : Value) (token : Str) : Except PyExc Value :=
  let key := unescape token
  match current with
  | .dict members =>
    match Assoc.get key members with
    | some next => .ok next
    | none => .error (invalidDocument "a $ref points at a node the document does not contain" origin)
  | .list items =>
    match Str.int? key with
    | none => .error (invalidDocument "a $ref uses a non-numeric index into an array" origin)
    | some index =>
      if index < 0 then .error (invalidDocument "a $ref points past the end of an array" origin)
      else match items[index.toNat]? with
        | some next => .ok next
        | none => .error (invalidDocument "a $ref points past the end of an array" origin)
  | _ => .error (invalidDocument "a $ref traverses into a value that is not an object or array" origin)

def dereference (document : Dict) (targetPointer origin : Str) : Except PyExc Value :=
  loop (descend origin) (.dict document) ((Str.split targetPointer '/').drop 1)

def childPointer (pointer key : Str) : Str := pointer ++ CodePoint.ofChar '/' :: escape key

/-- One round of the sibling overlay. -/
def overlay (nested : Str → Value → Except PyExc Value) (merged : Dict) (entry : Str × Value) : Except PyExc Dict := do
  let value ← nested entry.1 entry.2
  return Dict.set merged entry.1 value

/-- `_resolve`; `levels` counts how many more levels are allowed, this one included. -/
def resolveNode (document : Dict) : Nat → Value → Str → List Str → Except PyExc Value
  | 0,_,pointer,_ =>
    .error (unsupportedFeature "the referenced schema nests deeper than the resolver supports" pointer)
  | levels + 1,node,pointer,seen =>
    match node with
    | .dict members =>
      match Dict.get members "$ref" with
      | .null => do
        let entries ← each (fun entry : Str × Value => do
          let value ← resolveNode document levels entry.2 (childPointer pointer entry.1) seen
          return (entry.1,value)) members
        return .dict entries
      | reference => do
        let target ← referencePointer reference pointer
        refuse (seen.contains target) (unsupportedFeature "recursive schema references are not supported" pointer)
        let found ← dereference document target pointer
        let resolved ← resolveNode document levels found target (seen ++ [target])
        match members.filter (fun entry => entry.1 != Str.lit "$ref"),resolved with
        | [],_ => return resolved
        | siblings,.dict base => do
          let merged ← loop (overlay fun key value =>
            resolveNode document levels value (childPointer pointer key) seen) base siblings
          return .dict merged
        | _,_ => return resolved
    | .list items => do
      let items ← each (fun item : Value × Nat =>
        resolveNode document levels item.1 (pointer ++ CodePoint.ofChar '/' :: Decimal.natural item.2) seen)
        items.zipIdx
      return .list items
    | _ => return node

/-- `ReferenceResolver(document).resolve(node, pointer=…)`. -/
def resolve (document : Dict) (node : Value) (pointer : Str) : Except PyExc Value :=
  resolveNode document (maxResolutionDepth + 1) node pointer []

end ToolLayer.OpenApi
