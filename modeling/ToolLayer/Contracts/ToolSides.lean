import ToolLayer.Contracts.Sides

/-! The two rules of a tool definition, part by part. -/
namespace ToolLayer
open Python Kit Kit.Result

/-- `validate_tool_definition`. -/
def validateToolDefinition [Unicode] (engine : SchemaEngine) (document : Value) : Except PyExc Unit := do
  validateAgainst Schemas.toolDefinition document "tool definition"
  let schema ← match document with
    | .dict members => item members "input_schema"
    | _ => .ok .null
  validateToolInputSchema engine schema "/input_schema"

def ToolDefinition.modelValidate [Pydantic] (v : Value) : Except PyExc ToolDefinition :=
  match ToolDefinition.read v with
  | some m => .ok m
  | none => .error .validationError

theorem ToolDefinition.modelValidate_eq_ok [Pydantic] {v : Value} {t : ToolDefinition} :
    ToolDefinition.modelValidate v = .ok t ↔ ToolDefinition.read v = some t := by
  unfold ToolDefinition.modelValidate
  cases ToolDefinition.read v <;> simp

theorem Dict.get_of_found {d : Dict} {name : Str} {w : Value} (found : Assoc.get name d = some w) :
    Dict.get d name = w := by
  simp [Dict.get,found]

namespace Sides

variable {v : Value}

/-- The texts a member that names one of some values can have. -/
theorem oneOf_second {A : Type} (spelling : A → Str) (values : List A) :
    (oneOf (values.map spelling)).second v ↔ ∃ a ∈ values, v = .str (spelling a) := by
  simp [oneOf]

theorem text_injective : Function.Injective BindingTarget.text := by
  intro a b same
  cases a <;> cases b <;> first | rfl | exact absurd same (by decide)

theorem text_eq_body {t : BindingTarget} : Value.str t.text = .str "body" ↔ t = .body := by
  rw [Value.str.injEq]
  exact text_injective.eq_iff' rfl

/-- A body binding names a pointer, any other binding a name on one line. -/
def Addressed (v : Value) : Prop :=
  ∀ name, v.entry "target_name" = .str name →
    (v.entry "target" = .str "body" → Str.startsWith name "/" = true) ∧
    (v.entry "target" ≠ .str "body" → CodePoint.ofChar '\n' ∉ name)

def argumentBinding : Sides :=
  (object [("argument_pointer",pattern Patterns.jsonPointer),("target",oneOf ["path","query","header","body"]),
    ("target_name",text 1 256)]).and (modelOnly Addressed)

theorem argumentBinding_first : Schemas.argumentBinding v = [] ↔ argumentBinding.first v := by
  refine Iff.trans (rule_object ?_) (and_iff_left modelOnly_first).symm
  exact .cons ⟨rfl,fun _ => pattern_first⟩ (.cons ⟨rfl,fun _ => oneOf_first⟩
    (.cons ⟨rfl,fun _ => text_first⟩ .nil))

theorem argumentBinding_second : argumentBinding.second v ↔ ∃ b, ArgumentBinding.read v = some b := by
  constructor
  · rintro ⟨shape,addressed⟩
    obtain ⟨d,rfl,known,each⟩ := object_second.mp shape
    simp only [List.forall_mem_cons] at each
    obtain ⟨⟨_,pointerFound,pointer⟩,⟨_,targetFound,target⟩,⟨_,nameFound,name⟩,_⟩ := each
    obtain ⟨p,rfl,pointerTaken⟩ := pattern_second.mp pointer
    obtain ⟨t,_,rfl⟩ := (oneOf_second BindingTarget.text [.path,.query,.header,.body]).mp target
    obtain ⟨n,rfl,nameTaken⟩ := text_second.mp name
    have placed := modelOnly_second.mp addressed n (Dict.get_of_found nameFound)
    rw [Value.entry_dict,Dict.get_of_found targetFound,ne_eq,text_eq_body] at placed
    have accepted : ArgumentBinding.Accepts p t n := ⟨by rw [pointerTaken,nameTaken]; rfl,placed.1,placed.2⟩
    exact ⟨⟨p,t,n,accepted⟩,ArgumentBinding.read_iff.mpr
      ⟨d,rfl,known,pointerFound,targetFound,nameFound⟩⟩
  · rintro ⟨b,read⟩
    obtain ⟨d,rfl,known,pointerFound,targetFound,nameFound⟩ := ArgumentBinding.read_iff.mp read
    obtain ⟨texts,pointed,oneLine⟩ := b.accepted
    rw [Bool.and_eq_true] at texts
    refine ⟨object_second.mpr ⟨d,rfl,known,?_⟩,modelOnly_second.mpr ?_⟩
    · simp only [List.forall_mem_cons]
      exact ⟨⟨_,pointerFound,pattern_second.mpr ⟨_,rfl,texts.1⟩⟩,
        ⟨_,targetFound,(oneOf_second BindingTarget.text [.path,.query,.header,.body]).mpr
          ⟨b.target,by cases b.target <;> simp,rfl⟩⟩,
        ⟨_,nameFound,text_second.mpr ⟨_,rfl,texts.2⟩⟩,by simp⟩
    · intro name found
      rw [Value.entry_dict,Dict.get_of_found nameFound,Value.str.injEq] at found
      rw [Value.entry_dict,Dict.get_of_found targetFound,ne_eq,text_eq_body,← found]
      exact ⟨pointed,oneLine⟩

/-- Where a binding puts its argument. -/
def location (b : Value) : Value × Value := (b.entry "target",b.entry "target_name")

/-- No two bindings share a location, and there is a media type just when one is in the body. -/
def BindingsConsistent (v : Value) : Prop :=
  ((v.entry "bindings").items.map location).Nodup ∧
  (v.entry "request_body_media_type" ≠ .null ↔ ∃ b ∈ (v.entry "bindings").items, b.entry "target" = .str "body")

/-- The readings of `\s` differ: the schema refuses four separators more. -/
def pathTemplate : Sides :=
  (matching 1 2048 (Patterns.pathTemplate Patterns.whiteSpace)).and (schemaOnly (fun v =>
    ∀ s, v = .str s → Patterns.beforeFinalNewline (Patterns.pathTemplate CodePoint.isSpace) s = true))

def bindings : Sides :=
  (list argumentBinding).and (schemaOnly (fun v => v.items.length ≤ 128 ∧ Rule.distinct v.items = true))

def toolOperation : Sides :=
  (object [("protocol",exactly "http"),("method",oneOf ["GET","POST","PUT","PATCH","DELETE"]),
    ("path_template",pathTemplate),("bindings",bindings),
    ("request_body_media_type",TwoSided.same (fun v => v = .str "application/json" ∨ v = .null))]).and
    (modelOnly BindingsConsistent)

theorem pathTemplate_mono {s : Str} (matched : Patterns.pathTemplate CodePoint.isSpace s = true) :
    Patterns.pathTemplate Patterns.whiteSpace s = true := by
  cases s with
  | nil => cases matched
  | cons c rest =>
    simp only [Patterns.pathTemplate,Bool.and_eq_true,List.all_eq_true,Bool.not_eq_true'] at matched ⊢
    refine ⟨matched.1,fun d member => ⟨(matched.2 d member).1,?_⟩⟩
    simp [Patterns.whiteSpace,(matched.2 d member).2]

theorem pathTemplate_first : Rule.all [Schemas.text 1 2048,
    Rule.pattern (Patterns.pathTemplate CodePoint.isSpace)] v = [] ↔ pathTemplate.first v := by
  rw [Rule.all_cons_eq_nil,Rule.all_cons_eq_nil,pathTemplate,TwoSided.and]
  simp only [matching_first,schemaOnly_first]
  constructor
  · rintro ⟨bounded,matched,_⟩
    obtain ⟨⟨s,rfl,_⟩,_⟩ := text_first.mp bounded
    simp only [Rule.pattern,Rule.onText_eq_nil] at matched ⊢
    refine ⟨⟨bounded,?_⟩,by rintro _ ⟨⟩; exact matched⟩
    simp only [Patterns.beforeFinalNewline,Bool.or_eq_true,Bool.and_eq_true] at matched ⊢
    exact matched.imp pathTemplate_mono (And.imp_right pathTemplate_mono)
  · rintro ⟨⟨bounded,_⟩,matched⟩
    obtain ⟨⟨s,rfl,_⟩,_⟩ := text_first.mp bounded
    exact ⟨bounded,by simpa [Rule.pattern] using matched s rfl,by simp [Rule.all]⟩

theorem bindings_first : Schemas.unique 128 Schemas.argumentBinding v = [] ↔ bindings.first v := by
  simp only [Schemas.unique,Rule.all_cons_eq_nil,Rule.type_array_eq_nil,bindings,TwoSided.and,list_first,
    schemaOnly_first]
  constructor
  · rintro ⟨⟨values,rfl⟩,short,apart,each,_⟩
    rw [Rule.items_eq_nil] at each
    exact ⟨⟨values,rfl,fun w member => argumentBinding_first.mp (each w member)⟩,
      by simpa [Rule.maxItems] using short,by simpa [Rule.uniqueItems] using apart⟩
  · rintro ⟨⟨values,rfl,each⟩,short,apart⟩
    refine ⟨⟨values,rfl⟩,by simpa [Rule.maxItems] using short,by simpa [Rule.uniqueItems] using apart,?_,by simp [Rule.all]⟩
    exact Rule.items_eq_nil.mpr (fun w member => argumentBinding_first.mpr (each w member))

theorem mediaType_first : Rule.all [Rule.type [.string,.null],Rule.enum [.str "application/json",.null]] v = [] ↔
    v = .str "application/json" ∨ v = .null := by
  rw [Rule.all_cons_eq_nil,Rule.all_cons_eq_nil,Rule.type_eq_nil,Rule.enum,Rule.leaf_eq_nil]
  cases v with
  | str s =>
    simp only [Value.isType,Value.jsonEq,Rule.all,List.any_cons,List.any_nil,List.flatMap_nil]
    simp [@eq_comm _ s]
  | _ => simp [Value.isType,Value.jsonEq,Rule.all]

theorem toolOperation_first : Schemas.toolOperation v = [] ↔ toolOperation.first v := by
  refine Iff.trans (rule_object ?_) (and_iff_left modelOnly_first).symm
  exact .cons ⟨rfl,fun _ => exactly_first⟩ (.cons ⟨rfl,fun _ => oneOf_first⟩
    (.cons ⟨rfl,fun _ => pathTemplate_first⟩ (.cons ⟨rfl,fun _ => bindings_first⟩
    (.cons ⟨rfl,fun _ => mediaType_first.trans (Iff.symm same_first)⟩ .nil))))

/-- What the model made of each binding says where it stands. -/
theorem location_of_read {values : List Value} {bs : List ArgumentBinding}
    (each : List.Forall₂ (fun w b => ArgumentBinding.read w = some b) values bs) :
    values.map location = (ToolOperation.locations bs).map (fun l => (.str l.1.text,.str l.2)) ∧
      ((∃ w ∈ values, w.entry "target" = .str "body") ↔ bs.any (fun b => b.target == .body) = true) := by
  induction each with
  | nil => simp [ToolOperation.locations]
  | @cons w b _ _ first _ ih =>
    obtain ⟨d,rfl,_,_,target,name⟩ := ArgumentBinding.read_iff.mp first
    have here : location (.dict d) = (.str b.target.text,.str b.targetName) := by
      simp [location,Dict.get_of_found target,Dict.get_of_found name]
    refine ⟨by rw [List.map_cons,here,ih.1]; rfl,?_⟩
    rw [List.any_cons,Bool.or_eq_true,beq_iff_eq,← ih.2,← text_eq_body]
    simp [Dict.get_of_found target]

theorem bindingsConsistent_iff {d : Dict} {values : List Value} {bs : List ArgumentBinding} {jsonBody : Bool}
    (each : List.Forall₂ (fun w b => ArgumentBinding.read w = some b) values bs)
    (listed : Assoc.get (Str.lit "bindings") d = some (.list values))
    (media : Assoc.get (Str.lit "request_body_media_type") d = some (ToolOperation.mediaType jsonBody)) :
    BindingsConsistent (.dict d) ↔
      (ToolOperation.locations bs).Nodup ∧ jsonBody = bs.any (fun b => b.target == .body) := by
  obtain ⟨located,body⟩ := location_of_read each
  have injective : Function.Injective (fun l : BindingTarget × Str => (Value.str l.1.text,Value.str l.2)) := by
    rintro ⟨a,m⟩ ⟨b,n⟩ same
    simp only [Prod.mk.injEq,Value.str.injEq] at same
    rw [text_injective same.1,same.2]
  rw [BindingsConsistent,Value.entry_dict,Value.entry_dict,Dict.get_of_found listed,Dict.get_of_found media,
    Value.items_list,located,List.nodup_map_iff injective,body]
  refine and_congr_right' ?_
  cases jsonBody <;> cases bs.any (fun b => b.target == .body) <;> simp [ToolOperation.mediaType]

theorem toolOperation_second : toolOperation.second v ↔ ∃ o, ToolOperation.read v = some o := by
  constructor
  · rintro ⟨shape,consistent⟩
    obtain ⟨d,rfl,known,each⟩ := object_second.mp shape
    simp only [List.forall_mem_cons] at each
    obtain ⟨⟨_,protocolFound,protocol⟩,⟨_,methodFound,method⟩,⟨_,pathFound,path⟩,⟨_,listed,bound⟩,
      ⟨_,mediaFound,media⟩,_⟩ := each
    obtain rfl := same_second.mp protocol
    obtain ⟨m,_,rfl⟩ := (oneOf_second HttpMethod.upper HttpMethod.all).mp method
    obtain ⟨p,rfl,pathTaken⟩ := matching_second.mp path.1
    obtain ⟨values,rfl,items⟩ := list_second.mp bound.1
    obtain ⟨bs,readings⟩ := exists_forall₂.mpr (fun w member => argumentBinding_second.mp (items w member))
    have typed : ∃ jsonBody, Assoc.get (Str.lit "request_body_media_type") d = some (ToolOperation.mediaType jsonBody) := by
      rcases same_second.mp media with rfl | rfl
      · exact ⟨true,mediaFound⟩
      · exact ⟨false,mediaFound⟩
    obtain ⟨jsonBody,mediaFound⟩ := typed
    have agreed := (bindingsConsistent_iff readings listed mediaFound).mp (modelOnly_second.mp consistent)
    have accepted : ToolOperation.Accepts p bs jsonBody :=
      ⟨by rw [pathTaken.1,pathTaken.2]; rfl,agreed.1,agreed.2⟩
    exact ⟨⟨m,p,bs,jsonBody,accepted⟩,ToolOperation.read_iff.mpr
      ⟨d,values,rfl,known,protocolFound,methodFound,pathFound,listed,readings,mediaFound⟩⟩
  · rintro ⟨o,read⟩
    obtain ⟨d,values,rfl,known,protocol,method,path,listed,readings,media⟩ := ToolOperation.read_iff.mp read
    obtain ⟨template,apart,body⟩ := o.accepted
    rw [Bool.and_eq_true] at template
    have typed : ToolOperation.mediaType o.jsonBody = .str "application/json" ∨ ToolOperation.mediaType o.jsonBody = .null := by
      cases o.jsonBody <;> simp [ToolOperation.mediaType]
    refine ⟨object_second.mpr ⟨d,rfl,known,?_⟩,
      modelOnly_second.mpr ((bindingsConsistent_iff readings listed media).mpr ⟨apart,body⟩)⟩
    simp only [List.forall_mem_cons]
    exact ⟨⟨_,protocol,same_second.mpr rfl⟩,
      ⟨_,method,(oneOf_second HttpMethod.upper HttpMethod.all).mpr ⟨o.method,by cases o.method <;> simp [HttpMethod.all],rfl⟩⟩,
      ⟨_,path,matching_second.mpr ⟨_,rfl,template⟩,schemaOnly_second⟩,
      ⟨_,listed,list_second.mpr ⟨values,rfl,fun w member => argumentBinding_second.mpr
        (exists_forall₂.mp ⟨_,readings⟩ w member)⟩,schemaOnly_second⟩,
      ⟨_,media,same_second.mpr typed⟩,by simp⟩

def key : Sides := matching 1 64 Patterns.key

def roles : Sides :=
  ((list key).and (TwoSided.same (fun v => v.items.Nodup))).and (schemaOnly (fun v => v.items.length ≤ 32))

/-- Public tools have no roles, restricted ones have some. -/
def ModeAndRoles (v : Value) : Prop :=
  v.entry "access_mode" = .str "public" ↔ (v.entry "allowed_roles").items = []

def toolAccessPolicy : Sides :=
  (object [("access_mode",oneOf ["public","restricted"]),("allowed_roles",roles)]).and (TwoSided.same ModeAndRoles)

theorem key_first : Schemas.key v = [] ↔ key.first v := by
  rw [key,matching_first]
  simp [Schemas.key,Schemas.text,and_assoc]

theorem key_second : key.second v ↔ ∃ s, v = .str s ∧ resourceKey s = true := by
  rw [key,matching_second]
  simp [resourceKey]

theorem roles_first : Schemas.unique 32 Schemas.key v = [] ↔ roles.first v := by
  simp only [Schemas.unique,Rule.all_cons_eq_nil,Rule.type_array_eq_nil,roles,TwoSided.and,list_first,
    same_first,schemaOnly_first]
  have distinct {values : List Value} (each : ∀ w ∈ values, key.first w) :
      Rule.distinct values = true ↔ values.Nodup := by
    obtain ⟨texts,rfl⟩ := texts_of_items (fun w member => by
      obtain ⟨⟨s,same,_⟩,_⟩ := text_first.mp (matching_first.mp (each w member)).1
      exact ⟨s,same⟩)
    exact distinct_texts.trans nodup_texts.symm
  constructor
  · rintro ⟨⟨values,rfl⟩,short,apart,each,_⟩
    have keys : ∀ w ∈ values, key.first w := fun w member => key_first.mp (Rule.items_eq_nil.mp each w member)
    exact ⟨⟨⟨values,rfl,keys⟩,(distinct keys).mp (by simpa [Rule.uniqueItems] using apart)⟩,
      by simpa [Rule.maxItems] using short⟩
  · rintro ⟨⟨⟨values,rfl,keys⟩,apart⟩,short⟩
    refine ⟨⟨values,rfl⟩,by simpa [Rule.maxItems] using short,?_,?_,by simp [Rule.all]⟩
    · simpa [Rule.uniqueItems] using (distinct keys).mpr apart
    · exact Rule.items_eq_nil.mpr (fun w member => key_first.mpr (keys w member))

theorem toolAccessPolicy_first : Schemas.toolAccessPolicy v = [] ↔ toolAccessPolicy.first v := by
  have shape : Rule.object [("access_mode",Schemas.texts ["public","restricted"]),
      ("allowed_roles",Schemas.unique 32 Schemas.key)] v = [] ↔
      (object [("access_mode",oneOf ["public","restricted"]),("allowed_roles",roles)]).first v :=
    rule_object (.cons ⟨rfl,fun _ => oneOf_first⟩ (.cons ⟨rfl,fun _ => roles_first⟩ .nil))
  rw [Schemas.toolAccessPolicy,Rule.all_cons_eq_nil,Rule.all_cons_eq_nil,shape]
  refine and_congr_right (fun shaped => ?_)
  obtain ⟨d,rfl,_,each⟩ := object_first.mp shaped
  simp only [List.forall_mem_cons] at each
  obtain ⟨⟨_,modeFound,mode⟩,⟨_,rolesFound,taken⟩,_⟩ := each
  obtain ⟨values,rfl,_⟩ := list_first.mp taken.1.1
  have nothing : Rule.all [] (.dict d) = [] := rfl
  rw [same_first,ModeAndRoles,Value.entry_dict,Value.entry_dict,Dict.get_of_found modeFound,
    Dict.get_of_found rolesFound,Value.items_list,and_iff_left nothing]
  obtain ⟨s,member,rfl⟩ := same_first.mp mode
  simp only [List.mem_cons,List.not_mem_nil,or_false] at member
  rcases member with rfl | rfl
  · have unmet : (Rule.all [Rule.properties [("access_mode",Rule.const (.str "restricted"))],
        Rule.required ["access_mode"]] (.dict d)).isEmpty = false := by
      rw [List.isEmpty_eq_false_iff,ne_eq,Rule.all_cons_eq_nil,Rule.properties_eq_nil]
      rintro ⟨named,_⟩
      have same := Rule.const_str_eq_nil.mp (named _ (List.mem_singleton.mpr rfl) _ modeFound)
      exact absurd (Value.str.inj same) (by decide)
    simp [Rule.ifThenElse,unmet,rolesFound,Rule.maxItems]
  · have met : (Rule.all [Rule.properties [("access_mode",Rule.const (.str "restricted"))],
        Rule.required ["access_mode"]] (.dict d)).isEmpty = true := by
      rw [List.isEmpty_iff,Rule.all_cons_eq_nil,Rule.all_cons_eq_nil,Rule.properties_eq_nil]
      refine ⟨?_,by simp [Dict.has,modeFound],rfl⟩
      simp [modeFound,Rule.const,Value.jsonEq]
    have other : Str.lit "restricted" ≠ Str.lit "public" := by decide
    simp [Rule.ifThenElse,met,rolesFound,Rule.minItems,other,Nat.one_le_iff_ne_zero]

theorem accepts_sorted {mode : AccessMode} {texts : List Str} :
    ToolAccessPolicy.Accepts mode (texts.insertionSort (fun a b => Str.le a b = true)) ↔
      (∀ role ∈ texts, resourceKey role = true) ∧ (mode = .isPublic ↔ texts = []) ∧ texts.Nodup := by
  have reordered := List.perm_insertionSort (fun a b : Str => Str.le a b = true) texts
  have ordered := Value.pairwise_insertionSort texts
  simp only [ToolAccessPolicy.Accepts,reordered.mem_iff,reordered.nodup_iff,ordered,and_true]
  rw [← List.length_eq_zero_iff,List.length_insertionSort,List.length_eq_zero_iff]

theorem toolAccessPolicy_second : toolAccessPolicy.second v ↔ ∃ a, ToolAccessPolicy.read v = some a := by
  have opened (m : AccessMode) : Value.str m.text = .str "public" ↔ m = .isPublic := by
    rw [Value.str.injEq]
    cases m <;> decide
  constructor
  · rintro ⟨shape,agree⟩
    obtain ⟨d,rfl,known,each⟩ := object_second.mp shape
    simp only [List.forall_mem_cons] at each
    obtain ⟨⟨_,modeFound,mode⟩,⟨_,rolesFound,taken⟩,_⟩ := each
    obtain ⟨m,_,rfl⟩ := (oneOf_second AccessMode.text [.isPublic,.restricted]).mp mode
    obtain ⟨values,rfl,keys⟩ := list_second.mp taken.1.1
    obtain ⟨texts,rfl⟩ := texts_of_items (fun w member => by
      obtain ⟨s,same,_⟩ := key_second.mp (keys w member)
      exact ⟨s,same⟩)
    have apart : texts.Nodup := nodup_texts.mp (same_second.mp taken.1.2)
    have agree : Value.str m.text = .str "public" ↔ texts.map Value.str = [] := by
      simpa [ModeAndRoles,Dict.get_of_found modeFound,Dict.get_of_found rolesFound] using same_second.mp agree
    rw [opened,List.map_eq_nil_iff] at agree
    have admitted : ∀ role ∈ texts, resourceKey role = true := by
      intro role member
      obtain ⟨s,same,taken⟩ := key_second.mp (keys _ (List.mem_map_of_mem member))
      cases same
      exact taken
    exact ⟨⟨m,_,accepts_sorted.mpr ⟨admitted,agree,apart⟩⟩,ToolAccessPolicy.read_iff.mpr
      ⟨d,texts,rfl,known,modeFound,rolesFound,rfl⟩⟩
  · rintro ⟨a,read⟩
    obtain ⟨d,texts,rfl,known,mode,listed,sorted⟩ := ToolAccessPolicy.read_iff.mp read
    have accepted := a.accepted
    rw [← sorted] at accepted
    obtain ⟨admitted,agree,apart⟩ := accepts_sorted.mp accepted
    refine ⟨object_second.mpr ⟨d,rfl,known,?_⟩,same_second.mpr ?_⟩
    · simp only [List.forall_mem_cons]
      refine ⟨⟨_,mode,(oneOf_second AccessMode.text [.isPublic,.restricted]).mpr
          ⟨a.accessMode,by cases a.accessMode <;> simp,rfl⟩⟩,
        ⟨_,listed,⟨list_second.mpr ⟨_,rfl,?_⟩,same_second.mpr (nodup_texts.mpr apart)⟩,schemaOnly_second⟩,by simp⟩
      exact List.forall_mem_map.mpr (fun role member => key_second.mpr ⟨role,rfl,admitted role member⟩)
    · rw [ModeAndRoles,Value.entry_dict,Value.entry_dict,Dict.get_of_found mode,Dict.get_of_found listed,opened,
        Value.items_list,List.map_eq_nil_iff]
      exact agree

theorem sourceOperationId_first : Rule.all [Rule.type [.string,.null],Rule.minLength 1,Rule.maxLength 256,
    Rule.pattern Patterns.sourceOperationId] v = [] ↔ (reference Patterns.sourceOperationId).first v := by
  simp only [Rule.all_cons_eq_nil,Rule.type_eq_nil]
  cases v with
  | null => simp [Value.isType,Rule.minLength,Rule.maxLength,Rule.pattern,Rule.onText_null,Rule.all,reference_first_null]
  | str s => simp [Value.isType,Rule.minLength,Rule.maxLength,Rule.pattern,Rule.all,reference_first_text]
  | _ =>
    simp only [Value.isType]
    refine iff_of_false (by simp) (not_reference_first ?_)
    rintro (_ | _) <;> simp [textOrNull]

section Lax

variable [Pydantic]

def toolPolicy : Sides :=
  object [("effect_class",oneOf ["read","write","destructive"]),("requires_confirmation",boolean),
    ("access",toolAccessPolicy)]

theorem toolPolicy_first : Schemas.toolPolicy v = [] ↔ toolPolicy.first v :=
  rule_object (.cons ⟨rfl,fun _ => oneOf_first⟩ (.cons ⟨rfl,fun _ => boolean_first⟩
    (.cons ⟨rfl,fun _ => toolAccessPolicy_first⟩ .nil)))

theorem toolPolicy_second : toolPolicy.second v ↔ ∃ p, ToolPolicy.read v = some p := by
  constructor
  · intro shape
    obtain ⟨d,rfl,known,each⟩ := object_second.mp shape
    simp only [List.forall_mem_cons] at each
    obtain ⟨⟨_,effectFound,effect⟩,⟨_,confirmationFound,confirmation⟩,⟨_,accessFound,access⟩,_⟩ := each
    obtain ⟨e,_,rfl⟩ := (oneOf_second EffectClass.text EffectClass.all).mp effect
    obtain ⟨b,lax⟩ := boolean_second.mp confirmation
    obtain ⟨a,read⟩ := toolAccessPolicy_second.mp access
    exact ⟨⟨e,b,a⟩,ToolPolicy.read_iff.mpr
      ⟨d,_,_,rfl,known,effectFound,confirmationFound,lax,accessFound,read⟩⟩
  · rintro ⟨p,read⟩
    obtain ⟨d,_,_,rfl,known,effect,confirmation,lax,found,access⟩ := ToolPolicy.read_iff.mp read
    refine object_second.mpr ⟨d,rfl,known,?_⟩
    simp only [List.forall_mem_cons]
    exact ⟨⟨_,effect,(oneOf_second EffectClass.text EffectClass.all).mpr
        ⟨p.effectClass,by cases p.effectClass <;> simp [EffectClass.all],rfl⟩⟩,
      ⟨_,confirmation,boolean_second.mpr ⟨_,lax⟩⟩,⟨_,found,toolAccessPolicy_second.mpr ⟨_,access⟩⟩,by simp⟩

def toolProvenance : Sides :=
  object [("source_operation_id",reference Patterns.sourceOperationId),("source_path",text 1 2048),
    ("source_method",oneOf ["get","post","put","patch","delete"]),("tags",words),("deprecated",boolean),
    ("description_origin",oneOf ["source","generated","assisted","human"])]

theorem toolProvenance_first : Schemas.toolProvenance v = [] ↔ toolProvenance.first v :=
  rule_object (.cons ⟨rfl,fun _ => sourceOperationId_first⟩ (.cons ⟨rfl,fun _ => text_first⟩
    (.cons ⟨rfl,fun _ => oneOf_first⟩ (.cons ⟨rfl,fun _ => words_first⟩ (.cons ⟨rfl,fun _ => boolean_first⟩
    (.cons ⟨rfl,fun _ => oneOf_first⟩ .nil))))))

theorem toolProvenance_second : toolProvenance.second v ↔ ∃ p, ToolProvenance.read v = some p := by
  constructor
  · intro shape
    obtain ⟨d,rfl,known,each⟩ := object_second.mp shape
    simp only [List.forall_mem_cons] at each
    obtain ⟨⟨_,idFound,operationId⟩,⟨_,pathFound,path⟩,⟨_,methodFound,method⟩,⟨_,tagsFound,tags⟩,
      ⟨_,deprecatedFound,deprecated⟩,⟨_,originFound,origin⟩,_⟩ := each
    obtain ⟨o,rfl,idTaken⟩ := reference_second.mp operationId
    obtain ⟨p,rfl,pathTaken⟩ := text_second.mp path
    obtain ⟨m,_,rfl⟩ := (oneOf_second HttpMethod.lower HttpMethod.all).mp method
    obtain ⟨texts,rfl,tagsTaken⟩ := words_second.mp tags
    obtain ⟨b,lax⟩ := boolean_second.mp deprecated
    obtain ⟨written,_,rfl⟩ := (oneOf_second DescriptionOrigin.text DescriptionOrigin.all).mp origin
    exact ⟨⟨o,p,m,texts,b,written,idTaken,pathTaken,tagsTaken⟩,ToolProvenance.read_iff.mpr
      ⟨d,_,rfl,known,idFound,pathFound,methodFound,tagsFound,deprecatedFound,lax,originFound⟩⟩
  · rintro ⟨p,read⟩
    obtain ⟨d,_,rfl,known,operationId,path,method,tags,found,lax,origin⟩ := ToolProvenance.read_iff.mp read
    obtain ⟨idTaken,pathTaken,tagsTaken⟩ := p.accepted
    refine object_second.mpr ⟨d,rfl,known,?_⟩
    simp only [List.forall_mem_cons]
    exact ⟨⟨_,operationId,reference_second.mpr ⟨_,rfl,idTaken⟩⟩,⟨_,path,text_second.mpr ⟨_,rfl,pathTaken⟩⟩,
      ⟨_,method,(oneOf_second HttpMethod.lower HttpMethod.all).mpr
        ⟨p.sourceMethod,by cases p.sourceMethod <;> simp [HttpMethod.all],rfl⟩⟩,
      ⟨_,tags,words_second.mpr ⟨_,rfl,tagsTaken⟩⟩,⟨_,found,boolean_second.mpr ⟨_,lax⟩⟩,
      ⟨_,origin,(oneOf_second DescriptionOrigin.text DescriptionOrigin.all).mpr
        ⟨p.descriptionOrigin,by cases p.descriptionOrigin <;> simp [DescriptionOrigin.all],rfl⟩⟩,by simp⟩

end Lax

/-- A closed object schema, whose required names only the schema looks into. -/
def toolInputSchema : Sides :=
  TwoSided.ofParts (fun v => ∃ schema, v = .dict schema ∧ ToolDefinition.closedObjectSchema schema = true)
    (fun v => ∃ names : List Str, v.entry "required" = .list (names.map .str) ∧ names.Nodup) (fun _ => True)

theorem toolInputSchema_first : Schemas.toolInputSchema v = [] ↔ toolInputSchema.first v := by
  have closes (w : Value) : Rule.const (.bool false) w = [] ↔ w = .bool false := by
    rw [Rule.const,Rule.leaf_eq_nil]
    cases w <;> simp [Value.jsonEq]
  simp only [Schemas.toolInputSchema,Rule.all_cons_eq_nil,Rule.type_object_eq_nil,toolInputSchema,TwoSided.ofParts]
  constructor
  · rintro ⟨⟨schema,rfl⟩,present,named,_⟩
    rw [Rule.required_eq_nil] at present
    rw [Rule.properties_eq_nil] at named
    simp only [List.forall_mem_cons,Dict.has,Option.isSome_iff_exists] at present named
    obtain ⟨⟨_,spokenFound⟩,⟨_,typeFound⟩,⟨_,propertiesFound⟩,⟨_,requiredFound⟩,⟨_,extraFound⟩,_⟩ := present
    obtain ⟨spoken,typed,properties,required,extra,_⟩ := named
    cases Rule.const_str_eq_nil.mp (spoken _ spokenFound)
    cases Rule.const_str_eq_nil.mp (typed _ typeFound)
    obtain ⟨members,rfl⟩ := Rule.type_object_eq_nil.mp (properties _ propertiesFound)
    cases (closes _).mp (extra _ extraFound)
    have listed := required _ requiredFound
    simp only [Rule.all_cons_eq_nil,Rule.type_array_eq_nil] at listed
    obtain ⟨⟨items,rfl⟩,each,apart,_⟩ := listed
    obtain ⟨names,rfl⟩ := texts_of_items (fun w member => Rule.type_string_eq_nil.mp (Rule.items_eq_nil.mp each w member))
    refine ⟨⟨schema,rfl,ToolDefinition.closedObjectSchema_eq_true.mpr
      ⟨typeFound,extraFound,spokenFound,⟨members,propertiesFound⟩,⟨_,requiredFound⟩⟩⟩,names,?_,?_⟩
    · rw [Value.entry_dict,Dict.get_of_found requiredFound]
    · exact distinct_texts.mp (by simpa [Rule.uniqueItems] using apart)
  · rintro ⟨⟨schema,rfl,closed⟩,names,listed,apart⟩
    obtain ⟨typed,extra,spoken,⟨members,properties⟩,⟨items,required⟩⟩ :=
      ToolDefinition.closedObjectSchema_eq_true.mp closed
    rw [Value.entry_dict,Dict.get_of_found required] at listed
    cases listed
    have list : Rule.all [Rule.type [.array],Rule.items (Rule.type [.string]),Rule.uniqueItems]
        (.list (names.map .str)) = [] := by
      simp only [Rule.all_cons_eq_nil,Rule.type_array_eq_nil,Rule.items_eq_nil,List.forall_mem_map]
      refine ⟨⟨_,rfl⟩,fun s _ => Rule.type_string_eq_nil.mpr ⟨s,rfl⟩,?_,rfl⟩
      simpa [Rule.uniqueItems] using distinct_texts.mpr apart
    refine ⟨⟨schema,rfl⟩,?_,?_,rfl⟩
    · rw [Rule.required_eq_nil]
      simp [Dict.has,typed,extra,spoken,properties,required]
    · rw [Rule.properties_eq_nil]
      simp only [List.forall_mem_cons,typed,extra,spoken,properties,required,Option.some.injEq,forall_eq']
      exact ⟨Rule.const_str_eq_nil.mpr rfl,Rule.const_str_eq_nil.mpr rfl,Rule.type_object_eq_nil.mpr ⟨_,rfl⟩,list,
        (closes _).mpr rfl,by simp⟩

variable (engine : SchemaEngine)

/-- The tool's own schema passes `check_schema`. -/
def SchemaChecked (v : Value) : Prop :=
  ∀ schema, v.entry "input_schema" = .dict schema → engine.checkSchema schema = true

/-- Every binding starts in an argument the input schema declares. -/
def ArgumentsDeclared (v : Value) : Prop :=
  ∀ schema, v.entry "input_schema" = .dict schema → ∀ b ∈ ((v.entry "operation").entry "bindings").items,
    ∀ pointer, b.entry "argument_pointer" = .str pointer →
      ToolDefinition.bindingRoot pointer ∈ ToolDefinition.declaredNames schema

variable [Pydantic]

/-- What the schema says of a tool, and all that its model checks. -/
def toolShape : Sides :=
  (object [("tool_name",matching 1 64 Patterns.toolName),("display_name",text 1 128),("description",text 1 1024),
    ("input_schema",toolInputSchema),("operation",toolOperation),("policy",toolPolicy),
    ("provenance",toolProvenance)]).and (modelOnly ArgumentsDeclared)

def toolDefinition : Sides := toolShape.and (schemaOnly (SchemaChecked engine))

theorem toolShape_first : Schemas.toolDefinition v = [] ↔ toolShape.first v := by
  have toolName (w : Value) : Schemas.toolName w = [] ↔ (matching 1 64 Patterns.toolName).first w := by
    rw [matching_first]
    simp [Schemas.toolName,Schemas.text,and_assoc]
  refine Iff.trans (rule_object ?_) (and_iff_left modelOnly_first).symm
  exact (.cons ⟨rfl,toolName⟩ (.cons ⟨rfl,fun _ => text_first⟩ (.cons ⟨rfl,fun _ => text_first⟩
    (.cons ⟨rfl,fun _ => toolInputSchema_first⟩ (.cons ⟨rfl,fun _ => toolOperation_first⟩
    (.cons ⟨rfl,fun _ => toolPolicy_first⟩ (.cons ⟨rfl,fun _ => toolProvenance_first⟩ .nil)))))))

theorem toolDefinition_first : (toolDefinition engine).first v ↔
    Schemas.toolDefinition v = [] ∧ SchemaChecked engine v :=
  and_congr toolShape_first.symm schemaOnly_first

omit [Pydantic] in
/-- The schema a tool's rule accepted, and what is left to check of it. -/
theorem exists_inputSchema (valid : Schemas.toolDefinition v = []) : ∃ d schema, v = .dict d ∧
    Assoc.get (Str.lit "input_schema") d = some (.dict schema) ∧
    ∀ pointer, validateToolInputSchema engine (.dict schema) pointer = .ok () ↔ SchemaChecked engine v := by
  obtain ⟨d,rfl,_,each⟩ := Rule.object_eq_nil.mp valid
  obtain ⟨_,found,closed⟩ := each (Str.lit "input_schema",Schemas.toolInputSchema) (by simp)
  obtain ⟨⟨schema,rfl,_⟩,_⟩ := toolInputSchema_first.mp closed
  refine ⟨d,schema,rfl,found,fun pointer => ?_⟩
  rw [validateToolInputSchema,refuse_eq_ok]
  simp [SchemaChecked,Dict.get_of_found found]

theorem validateToolDefinition_eq_ok [Unicode] :
    validateToolDefinition engine v = .ok () ↔ (toolDefinition engine).first v := by
  rw [toolDefinition_first,validateToolDefinition]
  constructor
  · intro accepted
    obtain ⟨_,valid,accepted⟩ := bind_eq_ok.mp accepted
    have valid := validateAgainst_eq_ok.mp valid
    obtain ⟨d,schema,rfl,found,checked⟩ := exists_inputSchema engine valid
    simp only [item_eq_ok.mpr found,ok_bind] at accepted
    exact ⟨valid,(checked _).mp accepted⟩
  · rintro ⟨valid,accepted⟩
    obtain ⟨d,schema,rfl,found,checked⟩ := exists_inputSchema engine valid
    rw [validateAgainst_eq_ok.mpr valid,ok_bind]
    simp only [item_eq_ok.mpr found,ok_bind]
    exact (checked _).mpr accepted

omit [Pydantic] in
theorem argumentsDeclared_iff {d : Dict} {o : ToolOperation} {operation : Value} {schema : Dict}
    (read : ToolOperation.read operation = some o) (found : Assoc.get (Str.lit "operation") d = some operation)
    (declared : Assoc.get (Str.lit "input_schema") d = some (.dict schema)) :
    ArgumentsDeclared (.dict d) ↔ ToolDefinition.bindingsDeclared schema o.bindings = true := by
  obtain ⟨od,values,rfl,_,_,_,_,listed,each,_⟩ := ToolOperation.read_iff.mp read
  simp only [ArgumentsDeclared,Value.entry_dict,Dict.get_of_found found,Dict.get_of_found declared,
    Dict.get_of_found listed,Value.items_list,Value.dict.injEq,forall_eq',ToolDefinition.bindingsDeclared,
    List.all_eq_true,decide_eq_true_eq]
  constructor
  · intro all b member
    obtain ⟨w,inside,readW⟩ := exists_left each member
    obtain ⟨wd,rfl,_,pointer,_⟩ := ArgumentBinding.read_iff.mp readW
    exact all _ inside _ (Dict.get_of_found pointer)
  · intro all w inside p same
    obtain ⟨b,member,readW⟩ := exists_right each inside
    obtain ⟨wd,rfl,_,pointer,_⟩ := ArgumentBinding.read_iff.mp readW
    rw [Value.entry_dict,Dict.get_of_found pointer] at same
    cases same
    exact all b member

theorem toolShape_second : toolShape.second v ↔ ∃ t, ToolDefinition.read v = some t := by
  constructor
  · rintro ⟨shape,declares⟩
    obtain ⟨d,rfl,known,each⟩ := object_second.mp shape
    simp only [List.forall_mem_cons] at each
    obtain ⟨⟨_,nameFound,name⟩,⟨_,displayFound,display⟩,⟨_,descriptionFound,description⟩,⟨_,schemaFound,schema⟩,
      ⟨_,operationFound,operation⟩,⟨_,policyFound,policy⟩,⟨_,provenanceFound,provenance⟩,_⟩ := each
    obtain ⟨n,rfl,nameTaken⟩ := matching_second.mp name
    obtain ⟨shown,rfl,displayTaken⟩ := text_second.mp display
    obtain ⟨told,rfl,descriptionTaken⟩ := text_second.mp description
    obtain ⟨⟨s,rfl,closed⟩,_⟩ := schema
    obtain ⟨o,operationRead⟩ := toolOperation_second.mp operation
    obtain ⟨p,policyRead⟩ := toolPolicy_second.mp policy
    obtain ⟨from_,provenanceRead⟩ := toolProvenance_second.mp provenance
    have declared := (argumentsDeclared_iff operationRead operationFound schemaFound).mp (modelOnly_second.mp declares)
    have named : isToolName n = true := by
      rw [isToolName,nameTaken.1,nameTaken.2]
      rfl
    exact ⟨⟨n,shown,told,s,o,p,from_,named,displayTaken,descriptionTaken,closed,declared⟩,ToolDefinition.read_iff.mpr
      ⟨d,_,_,_,rfl,known,nameFound,displayFound,descriptionFound,schemaFound,operationFound,operationRead,policyFound,
        policyRead,provenanceFound,provenanceRead⟩⟩
  · rintro ⟨t,read⟩
    obtain ⟨d,_,_,_,rfl,known,name,display,description,schema,operationFound,operation,policyFound,policy,
      provenanceFound,provenance⟩ := ToolDefinition.read_iff.mp read
    obtain ⟨named,displayed,described,closed,declared⟩ := t.accepted
    rw [isToolName,Bool.and_eq_true] at named
    refine ⟨object_second.mpr ⟨d,rfl,known,?_⟩,
      modelOnly_second.mpr ((argumentsDeclared_iff operation operationFound schema).mpr declared)⟩
    simp only [List.forall_mem_cons]
    exact ⟨⟨_,name,matching_second.mpr ⟨_,rfl,named⟩⟩,⟨_,display,text_second.mpr ⟨_,rfl,displayed⟩⟩,
      ⟨_,description,text_second.mpr ⟨_,rfl,described⟩⟩,⟨_,schema,⟨_,rfl,closed⟩,trivial⟩,
      ⟨_,operationFound,toolOperation_second.mpr ⟨_,operation⟩⟩,⟨_,policyFound,toolPolicy_second.mpr ⟨_,policy⟩⟩,
      ⟨_,provenanceFound,toolProvenance_second.mpr ⟨_,provenance⟩⟩,by simp⟩

theorem toolDefinition_second : (toolDefinition engine).second v ↔ ∃ t, ToolDefinition.read v = some t :=
  (and_iff_left schemaOnly_second).trans toolShape_second

end Sides

end ToolLayer
