import ToolLayer.OpenApi.Bindings
import ToolLayer.Policy.Arguments

/-! Which arguments bindings may read: what the tool model checks of a pointer, and what the
pointer means. -/
namespace ToolLayer.Policy
open Python Kit Kit.Result OpenApi

/-- The name `_read_pointer` looks up first. -/
def firstToken (pointer : Str) : Option Str := (pointerTokens pointer).head?.map unescape

/-- The pointer starts in a declared argument. -/
def ReadsDeclared (schema : Dict) (pointer : Str) : Prop :=
  ∃ name ∈ ToolDefinition.declaredNames schema, firstToken pointer = some name

/-- A pointer whose first token is spelled without escapes, and is not empty with more to follow. -/
def Ordinary (pointer : Str) : Prop :=
  ∃ name rest, pointer = CodePoint.ofChar '/' :: (name ++ rest) ∧ name.any needsEscape = false ∧
    (rest = [] ∨ name ≠ [] ∧ rest.head? = some (CodePoint.ofChar '/'))

theorem pointerTokens_slash (text : Str) : pointerTokens (CodePoint.ofChar '/' :: text) = Str.split text '/' := by
  have cut := Split.cut_sep (fun x => x == CodePoint.ofChar '/') (CodePoint.ofChar '/') text (beq_self_eq_true _)
  exact congrArg (List.drop 1) cut

/-- On such a pointer the model's reading is the right one. -/
theorem Ordinary.readings {pointer : Str} (ordinary : Ordinary pointer) :
    firstToken pointer = some (ToolDefinition.bindingRoot pointer) := by
  obtain ⟨name,rest,rfl,plain,ends⟩ := ordinary
  have tokens : firstToken (CodePoint.ofChar '/' :: (name ++ rest)) = some name := by
    rw [firstToken,pointerTokens_slash,split_head plain (ends.imp_right And.right)]
    exact congrArg some (unescape_plain plain)
  rw [tokens,bindingRoot_plain plain ends]

section Tools

variable [Pydantic]

/-- What the tool model asks apart from the bindings' arguments. -/
def OtherwiseValid (toolName displayName description : Str) (inputSchema : Dict) : Prop :=
  isToolName toolName = true ∧ boundedText 1 128 displayName = true ∧ boundedText 1 1024 description = true ∧
    ToolDefinition.closedObjectSchema inputSchema = true

/-- The tool model takes the bindings exactly when each reads a declared argument. -/
def ChecksArguments (toolName displayName description : Str) (inputSchema : Dict) (operation : ToolOperation)
    (policy : ToolPolicy) (provenance : ToolProvenance) : Prop :=
  (∃ tool, ToolDefinition.make toolName displayName description inputSchema operation policy provenance = .ok tool) ↔
    ∀ b ∈ operation.bindings, ReadsDeclared inputSchema b.argumentPointer

omit [Pydantic] in
theorem Ordinary.declared_iff {schema : Dict} {pointer : Str} (ordinary : Ordinary pointer) :
    ToolDefinition.bindingRoot pointer ∈ ToolDefinition.declaredNames schema ↔ ReadsDeclared schema pointer := by
  constructor
  · intro member
    exact ⟨_,member,ordinary.readings⟩
  · rintro ⟨name,member,first⟩
    rw [ordinary.readings] at first
    cases first
    exact member

theorem make_iff {toolName displayName description : Str} {inputSchema : Dict} {operation : ToolOperation}
    {policy : ToolPolicy} {provenance : ToolProvenance}
    (valid : OtherwiseValid toolName displayName description inputSchema) :
    (∃ tool, ToolDefinition.make toolName displayName description inputSchema operation policy provenance = .ok tool) ↔
      ∀ b ∈ operation.bindings, ToolDefinition.bindingRoot b.argumentPointer ∈ ToolDefinition.declaredNames inputSchema := by
  have declared : ToolDefinition.bindingsDeclared inputSchema operation.bindings = true ↔
      ∀ b ∈ operation.bindings, ToolDefinition.bindingRoot b.argumentPointer ∈ ToolDefinition.declaredNames inputSchema := by
    rw [ToolDefinition.bindingsDeclared,List.all_eq_true]
    simp
  rw [← declared,ToolDefinition.make]
  constructor
  · rintro ⟨tool,made⟩
    obtain ⟨accepted,_⟩ := validated_eq_ok.mp made
    exact accepted.2.2.2.2
  · intro reads
    exact ⟨_,validated_eq_ok.mpr ⟨⟨valid.1,valid.2.1,valid.2.2.1,valid.2.2.2,reads⟩,rfl⟩⟩

/-- The two readings agree about the bindings with extraordinary pointers, or one of the others
already reads no declared argument. -/
def Undivided (inputSchema : Dict) (bindings : List ArgumentBinding) : Prop :=
  (∀ b ∈ bindings, Ordinary b.argumentPointer → ReadsDeclared inputSchema b.argumentPointer) →
    ((∀ b ∈ bindings, ¬ Ordinary b.argumentPointer →
        ToolDefinition.bindingRoot b.argumentPointer ∈ ToolDefinition.declaredNames inputSchema) ↔
      ∀ b ∈ bindings, ¬ Ordinary b.argumentPointer → ReadsDeclared inputSchema b.argumentPointer)

theorem checksArguments_iff {toolName displayName description : Str} {inputSchema : Dict} {operation : ToolOperation}
    {policy : ToolPolicy} {provenance : ToolProvenance}
    (valid : OtherwiseValid toolName displayName description inputSchema) :
    ChecksArguments toolName displayName description inputSchema operation policy provenance ↔
      Undivided inputSchema operation.bindings := by
  have halves (P : Str → Prop) : (∀ b ∈ operation.bindings, P b.argumentPointer) ↔
      (∀ b ∈ operation.bindings, Ordinary b.argumentPointer → P b.argumentPointer) ∧
        ∀ b ∈ operation.bindings, ¬ Ordinary b.argumentPointer → P b.argumentPointer := by
    constructor
    · exact fun all => ⟨fun b member _ => all b member,fun b member _ => all b member⟩
    · rintro ⟨usual,unusual⟩ b member
      by_cases ordinary : Ordinary b.argumentPointer
      · exact usual b member ordinary
      · exact unusual b member ordinary
  have usual : (∀ b ∈ operation.bindings, Ordinary b.argumentPointer →
        ToolDefinition.bindingRoot b.argumentPointer ∈ ToolDefinition.declaredNames inputSchema) ↔
      ∀ b ∈ operation.bindings, Ordinary b.argumentPointer → ReadsDeclared inputSchema b.argumentPointer :=
    forall₃_congr (fun _ _ ordinary => ordinary.declared_iff)
  rw [ChecksArguments,make_iff valid,
    halves (fun p => ToolDefinition.bindingRoot p ∈ ToolDefinition.declaredNames inputSchema),
    halves (ReadsDeclared inputSchema),usual,and_congr_right_iff,Undivided]

/-- The tool model's check is the right one for a tool exactly when its two readings of the
extraordinary pointers come to the same; converted arguments pass it exactly when no
parameter's name needs escaping, whatever the fields of the body are called. -/
theorem arguments_checked_iff [Unicode] :
    (∀ toolName displayName description inputSchema operation policy provenance,
      OtherwiseValid toolName displayName description inputSchema →
      (ChecksArguments toolName displayName description inputSchema operation policy provenance ↔
        Undivided inputSchema operation.bindings)) ∧
    ∀ path pathItem operation table jsonBody parameters, argumentsOf path pathItem operation = .ok (table,jsonBody) →
      collectParameters pathItem operation = .ok parameters →
      (ToolDefinition.bindingsDeclared (inputSchemaOf table) table.bindings = true ↔
        ∀ p ∈ parameters, p.name.any needsEscape = false) :=
  ⟨fun _ _ _ _ _ _ _ valid => checksArguments_iff valid,
    fun _ _ _ _ _ _ made collected => argumentsOf_declared_iff made collected⟩

end Tools

section Filter

local instance filterUnicode : Unicode := Unicode.asciiOnly
local instance filterPydantic : Pydantic := Pydantic.exact

/-- An operation with a parameter whose name holds a slash. -/
def filteredOperation : Dict :=
  [("parameters",.list [.dict [("name",.str "filter/by"),("in",.str "query"),("schema",.dict [("type",.str "string")])]])]

def filterBinding : ArgumentBinding := ⟨"/filter~1by",.query,"filter/by",by decide +kernel⟩

def filteredTable : ArgumentTable := ⟨[("filter/by",.dict [("type",.str "string")])],[],[filterBinding]⟩

def filterBound : ToolOperation := ⟨.get,"/items",[filterBinding],false,by decide +kernel⟩

def filterPolicy : ToolPolicy := ⟨.read,false,ToolAccessPolicy.unrestricted⟩

def filterProvenance : ToolProvenance := ⟨none,"/items",.get,[],false,.generated,by decide +kernel⟩

theorem filtered_converts : okWith (fun made : ArgumentTable × Bool => made.1.bindings == filteredTable.bindings)
    (argumentsOf "/items" [] filteredOperation) = true := by
  decide +kernel

/-- The pointer of a converted parameter reads a declared argument, and the tool is refused. -/
theorem slash_in_name_refused : (∃ made, argumentsOf "/items" [] filteredOperation = .ok made ∧
      made.1.bindings = filteredTable.bindings) ∧
    ReadsDeclared (inputSchemaOf filteredTable) filterBinding.argumentPointer ∧
    OtherwiseValid "list_items" "List items" "Lists items." (inputSchemaOf filteredTable) ∧
    ¬ ChecksArguments "list_items" "List items" "Lists items." (inputSchemaOf filteredTable) filterBound filterPolicy
      filterProvenance := by
  have reads : ReadsDeclared (inputSchemaOf filteredTable) filterBinding.argumentPointer := ⟨"filter/by",by decide +kernel,by decide +kernel⟩
  have valid : OtherwiseValid "list_items" "List items" "Lists items." (inputSchemaOf filteredTable) := by
    unfold OtherwiseValid
    decide +kernel
  obtain ⟨made,converts,bound⟩ := exists_of_okWith filtered_converts
  refine ⟨⟨made,converts,beq_iff_eq.mp bound⟩,reads,valid,fun checks => ?_⟩
  have accepted := checks.mpr (fun b member => List.mem_singleton.mp member ▸ reads)
  have refused := (make_iff valid).mp accepted filterBinding (List.mem_singleton_self _)
  exact absurd refused (by decide +kernel)

end Filter

end ToolLayer.Policy
