import ToolLayer.Contracts.Readings
import ToolLayer.Contracts.Validation
import ToolLayer.Kit.TwoSided

/-! The rules of the contract schemas beside those of the contract models, value by
value: what both ask for, what only the schema asks and what only the model asks. -/
namespace Python.Value

/-- A member of a dictionary, `None` where it is not there. -/
def entry (v : Value) (name : Str) : Value :=
  match v with
  | .dict d => Dict.get d name
  | _ => .null

def items : Value → List Value
  | .list values => values
  | _ => []

@[simp] theorem entry_dict (d : Dict) (name : Str) : (dict d).entry name = Dict.get d name := rfl

@[simp] theorem items_list (values : List Value) : (list values).items = values := rfl

end Python.Value

namespace ToolLayer
open Python Kit

/-- A rule of the schema first, then that of the model. -/
abbrev Sides := TwoSided Value

namespace Sides

def schemaOnly (p : Value → Prop) : Sides := TwoSided.ofParts (fun _ => True) p (fun _ => True)

def modelOnly (p : Value → Prop) : Sides := TwoSided.ofParts (fun _ => True) (fun _ => True) p

/-- A dictionary without further members. -/
def closed (names : List Str) : Sides :=
  TwoSided.same (fun v => ∃ d, v = .dict d ∧ ∀ m ∈ d, m.1 ∈ names)

def member (name : Str) (s : Sides) : Sides :=
  TwoSided.along (fun v => match v with | .dict d => Assoc.get name d | _ => none) s

def members (fields : List (Str × Sides)) : Sides := TwoSided.conj (fields.map (fun f => member f.1 f.2))

/-- The usual closed object, all of whose members have to be there. -/
def object (fields : List (Str × Sides)) : Sides := (closed (fields.map (·.1))).and (members fields)

def list (s : Sides) : Sides :=
  (TwoSided.same (fun v => ∃ values, v = .list values)).and (TwoSided.each Value.items s)

def exactly (s : Str) : Sides := TwoSided.same (fun v => v = .str s)

def oneOf (texts : List Str) : Sides := TwoSided.same (fun v => ∃ s ∈ texts, v = .str s)

/-- A text within bounds; only the model needs it without lone surrogates. -/
def text (low high : Nat) : Sides :=
  TwoSided.ofParts (fun v => ∃ s, v = .str s ∧ low ≤ s.length ∧ s.length ≤ high) (fun _ => True)
    (fun v => ∀ s, v = .str s → s.scalar = true)

/-- A text within bounds that matches; the schema's `$` also stands before a final line break. -/
def matching (low high : Nat) (exact : Str → Bool) : Sides :=
  (text low high).and (TwoSided.ofParts
    (fun v => ∀ s, v = .str s → Patterns.beforeFinalNewline exact s = true) (fun _ => True)
    (fun v => ∀ s, v = .str s → exact s = true))

/-- The same without bounds. -/
def pattern (exact : Str → Bool) : Sides :=
  TwoSided.ofParts (fun v => ∃ s, v = .str s ∧ Patterns.beforeFinalNewline exact s = true) (fun _ => True)
    (fun v => ∀ s, v = .str s → s.scalar = true ∧ exact s = true)

/-- A text or nothing, which only the schema needs to match. -/
def reference (exact : Str → Bool) : Sides :=
  TwoSided.excusing (fun v => v = .null) ((text 0 256).and (schemaOnly (fun v =>
    ∀ s, v = .str s → 1 ≤ s.length ∧ Patterns.beforeFinalNewline exact s = true)))

section Lax

variable [Pydantic]

/-- The model also takes what lax mode reads as a boolean. -/
def boolean : Sides :=
  TwoSided.ofParts (fun v => (Pydantic.laxBool v).isSome = true) (fun v => ∃ b, v = .bool b) (fun _ => True)

/-- An integer from one on: a float without fraction for the schema, what lax mode reads
as an integer for the model. -/
def positive : Sides :=
  TwoSided.ofParts (fun v => ∀ n, v = .int n → 1 ≤ n)
    (fun v => (∃ n, v = .int n) ∨ ∃ x, v = .float x ∧ x.number.integer?.isSome = true ∧
      (x.number.le (.finite 1 0) = true → x.number.eq (.finite 1 0) = true))
    (fun v => ∃ n, Pydantic.laxInt v = some n ∧ 1 ≤ n)

/-- A text that its model takes as any `str`. -/
def plain : Sides :=
  TwoSided.ofParts (fun v => ∃ s, v = .str s) (fun _ => True)
    (fun v => ∀ s, v = .str s → Pydantic.plainText s = true)

/-- Tags and labels: only the schema bounds them. -/
def words : Sides :=
  TwoSided.ofParts (fun v => ∃ texts : List Str, v = .list (texts.map .str))
    (fun v => v.items.length ≤ 32 ∧ v.items.Nodup ∧ ∀ s, .str s ∈ v.items → 1 ≤ s.length ∧ s.length ≤ 64)
    (fun v => ∀ s, .str s ∈ v.items → Pydantic.plainText s = true)

end Lax

variable {v : Value} {fields : List (Str × Sides)} {names : List Str} {low high : Nat} {exact : Str → Bool}

@[simp] theorem same_first {check : Value → Prop} : (TwoSided.same check).first v ↔ check v := by
  simp [TwoSided.same,TwoSided.ofParts]

@[simp] theorem same_second {check : Value → Prop} : (TwoSided.same check).second v ↔ check v := by
  simp [TwoSided.same,TwoSided.ofParts]

@[simp] theorem schemaOnly_first {p : Value → Prop} : (schemaOnly p).first v ↔ p v := by
  simp [schemaOnly,TwoSided.ofParts]

@[simp] theorem schemaOnly_second {p : Value → Prop} : (schemaOnly p).second v := by
  simp [schemaOnly,TwoSided.ofParts]

@[simp] theorem modelOnly_first {p : Value → Prop} : (modelOnly p).first v := by
  simp [modelOnly,TwoSided.ofParts]

@[simp] theorem modelOnly_second {p : Value → Prop} : (modelOnly p).second v ↔ p v := by
  simp [modelOnly,TwoSided.ofParts]

theorem members_first {d : Dict} : (members fields).first (.dict d) ↔
    ∀ f ∈ fields, ∃ w, Assoc.get f.1 d = some w ∧ f.2.first w := by
  simp only [members,TwoSided.conj,List.forall_mem_map]
  rfl

theorem members_second {d : Dict} : (members fields).second (.dict d) ↔
    ∀ f ∈ fields, ∃ w, Assoc.get f.1 d = some w ∧ f.2.second w := by
  simp only [members,TwoSided.conj,List.forall_mem_map]
  rfl

theorem object_first : (object fields).first v ↔ ∃ d, v = .dict d ∧ (∀ m ∈ d, m.1 ∈ fields.map (·.1)) ∧
    ∀ f ∈ fields, ∃ w, Assoc.get f.1 d = some w ∧ f.2.first w := by
  constructor
  · rintro ⟨known,each⟩
    obtain ⟨d,rfl,inside⟩ := same_first.mp known
    exact ⟨d,rfl,inside,members_first.mp each⟩
  · rintro ⟨d,rfl,known,each⟩
    exact ⟨same_first.mpr ⟨d,rfl,known⟩,members_first.mpr each⟩

theorem object_second : (object fields).second v ↔ ∃ d, v = .dict d ∧ (∀ m ∈ d, m.1 ∈ fields.map (·.1)) ∧
    ∀ f ∈ fields, ∃ w, Assoc.get f.1 d = some w ∧ f.2.second w := by
  constructor
  · rintro ⟨known,each⟩
    obtain ⟨d,rfl,inside⟩ := same_second.mp known
    exact ⟨d,rfl,inside,members_second.mp each⟩
  · rintro ⟨d,rfl,known,each⟩
    exact ⟨same_second.mpr ⟨d,rfl,known⟩,members_second.mpr each⟩

/-- A schema object whose members' rules are the first sides. -/
theorem rule_object {rules : List (Str × Rule)}
    (paired : List.Forall₂ (fun r f => r.1 = f.1 ∧ ∀ w, r.2 w = [] ↔ f.2.first w) rules fields) :
    Rule.object rules v = [] ↔ (object fields).first v := by
  have names : rules.map (·.1) = fields.map (·.1) := by
    induction paired with
    | nil => rfl
    | cons head _ ih => rw [List.map_cons,List.map_cons,head.1,ih]
  rw [Rule.object_eq_nil,object_first,names]
  clear names
  refine exists_congr (fun d => and_congr_right (fun _ => and_congr_right' ?_))
  induction paired with
  | nil => simp
  | cons head _ ih => simp only [List.forall_mem_cons,ih,head.1,head.2]

theorem list_first {s : Sides} : (list s).first v ↔ ∃ values, v = .list values ∧ ∀ w ∈ values, s.first w := by
  constructor
  · rintro ⟨listed,each⟩
    obtain ⟨values,rfl⟩ := same_first.mp listed
    exact ⟨values,rfl,each⟩
  · rintro ⟨values,rfl,each⟩
    exact ⟨same_first.mpr ⟨values,rfl⟩,each⟩

theorem list_second {s : Sides} : (list s).second v ↔ ∃ values, v = .list values ∧ ∀ w ∈ values, s.second w := by
  constructor
  · rintro ⟨listed,each⟩
    obtain ⟨values,rfl⟩ := same_second.mp listed
    exact ⟨values,rfl,each⟩
  · rintro ⟨values,rfl,each⟩
    exact ⟨same_second.mpr ⟨values,rfl⟩,each⟩

theorem exactly_first {s : Str} : Rule.const (.str s) v = [] ↔ (exactly s).first v := by
  rw [Rule.const_str_eq_nil,exactly,same_first]

theorem oneOf_first {texts : List Str} : Schemas.texts texts v = [] ↔ (oneOf texts).first v := by
  simp only [Schemas.texts,Rule.all_cons_eq_nil,Rule.type_string_eq_nil,Rule.enum_str_eq_nil,oneOf,same_first]
  constructor
  · rintro ⟨_,found,_⟩
    exact found
  · rintro ⟨s,member,rfl⟩
    exact ⟨⟨s,rfl⟩,⟨s,member,rfl⟩,by simp [Rule.all]⟩

theorem text_first : Schemas.text low high v = [] ↔ (text low high).first v := by
  simp only [Schemas.text,Rule.all_cons_eq_nil,Rule.type_string_eq_nil,text,TwoSided.ofParts,and_true]
  constructor
  · rintro ⟨⟨s,rfl⟩,atLeast,atMost,_⟩
    exact ⟨s,rfl,by simpa [Rule.minLength] using atLeast,by simpa [Rule.maxLength] using atMost⟩
  · rintro ⟨s,rfl,atLeast,atMost⟩
    exact ⟨⟨s,rfl⟩,by simpa [Rule.minLength] using atLeast,by simpa [Rule.maxLength] using atMost,by simp [Rule.all]⟩

theorem text_second : (text low high).second v ↔ ∃ s, v = .str s ∧ boundedText low high s = true := by
  simp only [text,TwoSided.ofParts,boundedText,Pydantic.constrainedText,Bool.and_eq_true,decide_eq_true_eq]
  constructor
  · rintro ⟨⟨s,rfl,atLeast,atMost⟩,scalar⟩
    exact ⟨s,rfl,⟨scalar s rfl,atLeast⟩,atMost⟩
  · rintro ⟨s,rfl,⟨scalar,atLeast⟩,atMost⟩
    exact ⟨⟨s,rfl,atLeast,atMost⟩,by rintro _ ⟨⟩; exact scalar⟩

theorem matching_first : (matching low high exact).first v ↔
    Schemas.text low high v = [] ∧ Rule.pattern exact v = [] := by
  simp only [matching,TwoSided.and,TwoSided.ofParts,and_true,← text_first]
  refine and_congr_right (fun bounded => ?_)
  obtain ⟨⟨s,rfl,_⟩,_⟩ := text_first.mp bounded
  simp [Rule.pattern]

theorem matching_second : (matching low high exact).second v ↔
    ∃ s, v = .str s ∧ boundedText low high s = true ∧ exact s = true := by
  simp only [matching,TwoSided.and,text_second,TwoSided.ofParts]
  constructor
  · rintro ⟨⟨s,rfl,bounded⟩,_,matched⟩
    exact ⟨s,rfl,bounded,matched s rfl⟩
  · rintro ⟨s,rfl,bounded,matched⟩
    refine ⟨⟨s,rfl,bounded⟩,?_,?_⟩
    · rintro _ ⟨⟩
      exact Patterns.beforeFinalNewline_of_exact matched
    · rintro _ ⟨⟩
      exact matched

theorem pattern_first : Rule.all [Rule.type [.string],Rule.pattern exact] v = [] ↔ (pattern exact).first v := by
  rw [Rule.all_cons_eq_nil,Rule.all_cons_eq_nil,Rule.type_string_eq_nil]
  simp only [pattern,TwoSided.ofParts,and_true]
  constructor
  · rintro ⟨⟨s,rfl⟩,matched,_⟩
    exact ⟨s,rfl,by simpa [Rule.pattern] using matched⟩
  · rintro ⟨s,rfl,matched⟩
    exact ⟨⟨s,rfl⟩,by simpa [Rule.pattern] using matched,by simp [Rule.all]⟩

theorem pattern_second : (pattern exact).second v ↔
    ∃ s, v = .str s ∧ (Pydantic.constrainedText s && exact s) = true := by
  simp only [pattern,TwoSided.ofParts,Pydantic.constrainedText,Bool.and_eq_true]
  constructor
  · rintro ⟨⟨s,rfl,_⟩,matched⟩
    exact ⟨s,rfl,matched s rfl⟩
  · rintro ⟨s,rfl,scalar,matched⟩
    exact ⟨⟨s,rfl,Patterns.beforeFinalNewline_of_exact matched⟩,by rintro _ ⟨⟩; exact ⟨scalar,matched⟩⟩

theorem reference_second : (reference exact).second v ↔
    ∃ o : Option Str, v = textOrNull o ∧ o.all (boundedText 0 256) = true := by
  simp only [reference,TwoSided.excusing,TwoSided.and,text_second,schemaOnly_second,and_true]
  constructor
  · rintro (rfl | ⟨s,rfl,bounded⟩)
    · exact ⟨none,rfl,rfl⟩
    · exact ⟨some s,rfl,bounded⟩
  · rintro ⟨_ | s,rfl,bounded⟩
    · exact .inl rfl
    · exact .inr ⟨s,rfl,bounded⟩

/-- Both schemas of a reference ask the same of a text. -/
theorem reference_first_text {s : Str} : (reference exact).first (.str s) ↔
    1 ≤ s.length ∧ s.length ≤ 256 ∧ Patterns.beforeFinalNewline exact s = true := by
  simp only [reference,TwoSided.excusing,TwoSided.and,text,TwoSided.ofParts,schemaOnly_first]
  simp
  tauto

theorem reference_first_null : (reference exact).first .null := .inl rfl

theorem not_reference_first {v : Value} (odd : ∀ o, v ≠ textOrNull o) : ¬ (reference exact).first v := by
  rintro (rfl | ⟨⟨⟨s,rfl,_⟩,_⟩,_⟩)
  · exact odd none rfl
  · exact odd (some s) rfl

theorem distinct_texts {texts : List Str} : Rule.distinct (texts.map .str) = true ↔ texts.Nodup := by
  induction texts with
  | nil => simp [Rule.distinct]
  | cons s rest ih =>
    rw [List.map_cons,Rule.distinct,Bool.and_eq_true,ih,List.nodup_cons,Bool.not_eq_true',List.any_eq_false]
    refine and_congr_left' ?_
    constructor
    · intro apart member
      exact apart _ (List.mem_map_of_mem member) (by simp [Value.jsonEq])
    · intro absent w member equal
      obtain ⟨t,inside,rfl⟩ := List.mem_map.mp member
      have same : s = t := by simpa [Value.jsonEq] using equal
      exact absent (same ▸ inside)

theorem nodup_texts {texts : List Str} : (texts.map Value.str).Nodup ↔ texts.Nodup :=
  List.nodup_map_iff (fun _ _ same => Value.str.inj same)

/-- A list of texts, each within bounds. -/
theorem texts_of_items {values : List Value} (each : ∀ w ∈ values, ∃ s, w = .str s) :
    ∃ texts : List Str, values = texts.map .str := by
  induction values with
  | nil => exact ⟨[],rfl⟩
  | cons w rest ih =>
    rw [List.forall_mem_cons] at each
    obtain ⟨s,rfl⟩ := each.1
    obtain ⟨texts,rfl⟩ := ih each.2
    exact ⟨s::texts,rfl⟩

variable [Pydantic]

theorem boolean_first : Rule.type [.boolean] v = [] ↔ boolean.first v := by
  simp only [Rule.type_boolean_eq_nil,boolean,TwoSided.ofParts]
  constructor
  · rintro ⟨b,rfl⟩
    exact ⟨by simp [Pydantic.laxBool_bool],b,rfl⟩
  · rintro ⟨_,found⟩
    exact found

theorem boolean_second : boolean.second v ↔ ∃ b, Pydantic.laxBool v = some b := by
  simp [boolean,TwoSided.ofParts,Option.isSome_iff_exists]

theorem positive_first : Rule.all [Rule.type [.integer],Rule.minimum 1] v = [] ↔ positive.first v := by
  rw [Rule.all_cons_eq_nil,Rule.all_cons_eq_nil,Rule.type_eq_nil,Rule.minimum,Rule.leaf_eq_nil]
  cases v with
  | float x =>
    have below (p q : Bool) : (p = false ∨ q = true) ↔ (p = true → q = true) := by
      cases p <;> simp
    simp [positive,TwoSided.ofParts,Value.isType,Rule.all,below]
  | _ => simp [positive,TwoSided.ofParts,Value.isType,Rule.all]

theorem positive_second : positive.second v ↔ ∃ n, Pydantic.laxInt v = some n ∧ 1 ≤ n := by
  simp only [positive,TwoSided.ofParts,and_iff_right_iff_imp]
  rintro ⟨n,read,bound⟩ m rfl
  rw [Pydantic.laxInt_int,Option.some.injEq] at read
  exact read ▸ bound

theorem plain_first {valid : Str → Bool} (always : ∀ s, valid s = true) :
    Rule.all [Rule.type [.string],Rule.format valid] v = [] ↔ plain.first v := by
  rw [Rule.all_cons_eq_nil,Rule.type_string_eq_nil]
  simp only [plain,TwoSided.ofParts,and_true,and_iff_left_iff_imp]
  rintro ⟨s,rfl⟩
  simp [Rule.all,Rule.format,always]

theorem plain_second : plain.second v ↔ ∃ s, v = .str s ∧ Pydantic.plainText s = true := by
  simp only [plain,TwoSided.ofParts]
  constructor
  · rintro ⟨⟨s,rfl⟩,taken⟩
    exact ⟨s,rfl,taken s rfl⟩
  · rintro ⟨s,rfl,taken⟩
    exact ⟨⟨s,rfl⟩,by rintro _ ⟨⟩; exact taken⟩

theorem words_first : Schemas.unique 32 (Schemas.text 1 64) v = [] ↔ words.first v := by
  simp only [Schemas.unique,Rule.all_cons_eq_nil,Rule.type_array_eq_nil,words,TwoSided.ofParts]
  constructor
  · rintro ⟨⟨values,rfl⟩,short,apart,each,_⟩
    rw [Rule.items_eq_nil] at each
    obtain ⟨texts,rfl⟩ := texts_of_items (fun w member => by
      obtain ⟨⟨s,same,_⟩,_⟩ := text_first.mp (each w member)
      exact ⟨s,same⟩)
    refine ⟨⟨texts,rfl⟩,by simpa [Rule.maxItems] using short,?_,?_⟩
    · exact nodup_texts.mpr (distinct_texts.mp (by simpa [Rule.uniqueItems] using apart))
    · intro s member
      obtain ⟨⟨t,same,bounds⟩,_⟩ := text_first.mp (each _ member)
      cases same
      exact bounds
  · rintro ⟨⟨texts,rfl⟩,short,apart,bounds⟩
    refine ⟨⟨_,rfl⟩,by simpa [Rule.maxItems] using short,?_,?_,by simp [Rule.all]⟩
    · simpa [Rule.uniqueItems] using distinct_texts.mpr (nodup_texts.mp apart)
    · rw [Rule.items_eq_nil,List.forall_mem_map]
      exact fun s member => text_first.mpr ⟨⟨s,rfl,bounds s (List.mem_map_of_mem member)⟩,trivial⟩

theorem words_second : words.second v ↔
    ∃ texts : List Str, v = .list (texts.map .str) ∧ texts.all Pydantic.plainText = true := by
  simp only [words,TwoSided.ofParts,List.all_eq_true]
  constructor
  · rintro ⟨⟨texts,rfl⟩,taken⟩
    exact ⟨texts,rfl,fun s member => taken s (List.mem_map_of_mem member)⟩
  · rintro ⟨texts,rfl,taken⟩
    refine ⟨⟨texts,rfl⟩,fun s member => ?_⟩
    obtain ⟨t,inside,same⟩ := List.mem_map.mp member
    cases same
    exact taken s inside

end Sides

end ToolLayer
