import ToolLayer.Contracts.Agreement
import ToolLayer.Contracts.Encoding

/-! What a contract document becomes when its model reads and dumps it: the same JSON value,
which passes the same schema, unless the model normalises a part of it. -/
namespace ToolLayer
open Python Kit Kit.Result

namespace Sides

/-- `out` stands for `v`, and meets what the schema asks of `v`. -/
def Redumps (s : Sides) (v out : Value) : Prop := v.Alike out ∧ (s.first v → s.first out)

namespace Redumps

theorem refl (s : Sides) (v : Value) : s.Redumps v v := ⟨.refl v,id⟩

/-- The members of a closed object, one by one: name, rules, value and dump. -/
theorem object (names : List Str) (rows : List (Str × Sides × Value × Value)) {d : Dict}
    (shape : rows.map (fun r => r.1) = names) (apart : names.Nodup) (distinct : Value.distinct (.dict d) = true)
    (known : ∀ m ∈ d, m.1 ∈ names)
    (each : ∀ r ∈ rows, Assoc.get r.1 d = some r.2.2.1 ∧ Redumps r.2.1 r.2.2.1 r.2.2.2) :
    Redumps (Sides.object (rows.map (fun r => (r.1,r.2.1)))) (.dict d) (.dict (rows.map (fun r => (r.1,r.2.2.2)))) := by
  have keys {f : Str × Sides × Value × Value → Value} : Assoc.keys (rows.map (fun r => (r.1,f r))) = names := by
    rw [← shape,Assoc.keys,List.map_map]
    rfl
  constructor
  · have moved : d.Perm (rows.map (fun r => (r.1,r.2.2.1))) := by
      refine Value.perm_of_get (Value.distinct_dict.mp distinct).1 (by rw [keys]; exact apart)
        (by rw [keys]; exact known) ?_
      rw [List.forall_mem_map]
      exact fun r member => (each r member).1
    refine .dict_of_members moved ?_
    rw [List.forall₂_map_left_iff,List.forall₂_map_right_iff,List.forall₂_same]
    exact fun r member => ⟨rfl,(each r member).2.1⟩
  · intro first
    obtain ⟨_,same,_,fields⟩ := object_first.mp first
    cases same
    rw [List.forall_mem_map] at fields
    refine object_first.mpr ⟨_,rfl,?_,?_⟩
    · rw [List.forall_mem_map]
      intro r member
      rw [List.map_map]
      exact List.mem_map.mpr ⟨r,member,rfl⟩
    · rw [List.forall_mem_map]
      intro r member
      obtain ⟨w,found,passed⟩ := fields r member
      cases (each r member).1.symm.trans found
      have inside : Assoc.get r.1 (rows.map (fun r => (r.1,r.2.2.2))) = some r.2.2.2 := by
        refine Assoc.get_of_mem ?_ (List.mem_map.mpr ⟨r,member,rfl⟩)
        rw [keys]
        exact apart
      exact ⟨_,inside,(each r member).2.2 passed⟩

theorem list {s : Sides} {olds news : List Value} (each : List.Forall₂ s.Redumps olds news) :
    Redumps (Sides.list s) (.list olds) (.list news) := by
  refine ⟨.list (each.imp (fun _ _ both => both.1)),fun first => ?_⟩
  obtain ⟨_,same,passed⟩ := list_first.mp first
  cases same
  refine list_first.mpr ⟨news,rfl,fun w member => ?_⟩
  obtain ⟨v,inside,both⟩ := exists_left each member
  exact both.2 (passed v inside)

/-- Rules that only the dump's own acceptance by the model settles. -/
theorem and {s t : Sides} {v out : Value} (first : s.Redumps v out) (rest : t.first out) :
    Redumps (s.and t) v out :=
  ⟨first.1,fun passed => ⟨first.2 passed.1,rest⟩⟩

theorem along {s t : Sides} {v out : Value} (first : s.Redumps v out) (rest : t.first v → t.first out) :
    Redumps (s.and t) v out :=
  ⟨first.1,fun passed => ⟨first.2 passed.1,rest passed.2⟩⟩

end Redumps

end Sides

open Sides

theorem ArgumentBinding.redumps {v : Value} {b : ArgumentBinding} (read : read v = some b)
    (distinct : v.distinct = true) : argumentBinding.Redumps v b.dump := by
  obtain ⟨d,rfl,known,pointer,target,name⟩ := read_iff.mp read
  have inside := Redumps.object fields [("argument_pointer",pattern Patterns.jsonPointer,_,_),
    ("target",oneOf ["path","query","header","body"],_,_),("target_name",text 1 256,_,_)] rfl (by decide) distinct known (by
      simp only [List.forall_mem_cons]
      exact ⟨⟨pointer,.refl _ _⟩,⟨target,.refl _ _⟩,⟨name,.refl _ _⟩,by simp⟩)
  exact inside.and modelOnly_first

section Distinctness

theorem entry_of_jsonEq {v w : Value} {name s : Str} (same : v.jsonEq w = true) (text : v.entry name = .str s) :
    w.entry name = .str s := by
  cases v with
  | dict ms =>
    cases w with
    | dict ns =>
      rw [Value.jsonEq,Bool.and_eq_true] at same
      have found : Assoc.get name ms = some (.str s) := by
        rw [Value.entry_dict,Dict.get] at text
        cases found : Assoc.get name ms with
        | none => simp [found] at text
        | some w => simpa [found] using text
      have members : ∀ {ms : Dict}, Value.jsonEqMembers ms ns = true → (name,Value.str s) ∈ ms →
          Assoc.get name ns = some (.str s) := by
        intro ms all inside
        induction ms with
        | nil => cases inside
        | cons m rest ih =>
          rw [Value.jsonEqMembers,Bool.and_eq_true] at all
          rcases List.mem_cons.mp inside with rfl | later
          · have here := all.1
            split at here
            next other present =>
              rw [present]
              cases other with
              | str t =>
                have equal : s = t := by simpa [Value.jsonEq] using here
                rw [equal]
              | _ => simp [Value.jsonEq] at here
            next => cases here
          · exact ih all.2 later
      rw [Value.entry_dict,Dict.get_of_found (members same.2 (Assoc.mem_of_get found))]
    | _ => simp [Value.jsonEq] at same
  | _ => cases text

/-- Values that differ in some of their texts differ for the schema. -/
theorem distinct_of_entries (names : List Str) {values : List Value}
    (texts : ∀ v ∈ values, ∀ name ∈ names, ∃ s, v.entry name = .str s)
    (apart : (values.map (fun v => names.map v.entry)).Nodup) : Rule.distinct values = true := by
  induction values with
  | nil => rfl
  | cons v rest ih =>
    rw [List.map_cons,List.nodup_cons] at apart
    rw [List.forall_mem_cons] at texts
    rw [Rule.distinct,ih texts.2 apart.2,Bool.and_true,Bool.not_eq_true',List.any_eq_false]
    intro w member same
    refine apart.1 (List.mem_map.mpr ⟨w,member,List.map_congr_left (fun name inside => ?_)⟩)
    obtain ⟨s,text⟩ := texts.1 name inside
    rw [text,entry_of_jsonEq same text]

end Distinctness

theorem Redumps.of_read {M : Type} {read : Value → Option M} {dump : M → Value} {s : Sides} {olds : List Value}
    {ms : List M} (each : List.Forall₂ (fun w m => read w = some m) olds ms)
    (redumps : ∀ w ∈ olds, ∀ m, read w = some m → s.Redumps w (dump m)) : List.Forall₂ s.Redumps olds (ms.map dump) := by
  rw [List.forall₂_map_right_iff]
  induction each with
  | nil => exact .nil
  | cons head _ ih =>
    rw [List.forall_mem_cons] at redumps
    exact .cons (redumps.1 _ head) (ih redumps.2)

theorem ToolOperation.redumps {v : Value} {o : ToolOperation} (read : read v = some o)
    (distinct : v.distinct = true) : toolOperation.Redumps v o.dump := by
  obtain ⟨d,items,rfl,known,protocol,method,path,listed,each,media⟩ := read_iff.mp read
  have consistent : BindingsConsistent o.dump := modelOnly_second.mp (toolOperation_second.mpr ⟨o,read_dump o⟩).2
  have parts := Value.distinct_list.mp (Value.distinct_of_get distinct listed)
  have dumped := Redumps.of_read each (fun w member b read => ArgumentBinding.redumps read (parts w member))
  have apart : Rule.distinct (o.bindings.map ArgumentBinding.dump) = true := by
    refine distinct_of_entries ["target","target_name"] ?_ ?_
    · rw [List.forall_mem_map]
      intro b _ name member
      simp only [List.mem_cons,List.not_mem_nil,or_false] at member
      rcases member with rfl | rfl
      · exact ⟨_,rfl⟩
      · exact ⟨_,rfl⟩
    · have pairs : Function.Injective (fun p : Value × Value => [p.1,p.2]) := by
        rintro ⟨a,b⟩ ⟨c,d⟩ same
        simpa using same
      have mapped := consistent.1.map pairs
      rwa [List.map_map] at mapped
  have listed' : Sides.bindings.Redumps (.list items) (.list (o.bindings.map ArgumentBinding.dump)) := by
    refine (Redumps.list dumped).along (fun rest => ?_)
    rw [schemaOnly_first] at rest ⊢
    refine ⟨?_,apart⟩
    rw [Value.items_list,List.length_map,← each.length_eq]
    exact rest.1
  have inside := Redumps.object fields [("protocol",exactly "http",_,_),
    ("method",oneOf ["GET","POST","PUT","PATCH","DELETE"],_,_),("path_template",Sides.pathTemplate,_,_),
    ("bindings",Sides.bindings,_,_),
    ("request_body_media_type",TwoSided.same (fun v => v = .str "application/json" ∨ v = .null),_,_)]
    rfl (by decide) distinct known (by
      simp only [List.forall_mem_cons]
      exact ⟨⟨protocol,.refl _ _⟩,⟨method,.refl _ _⟩,⟨path,.refl _ _⟩,⟨listed,listed'⟩,⟨media,.refl _ _⟩,by simp⟩)
  exact inside.and modelOnly_first

theorem ToolAccessPolicy.redumps {v : Value} {a : ToolAccessPolicy} (read : read v = some a)
    (distinct : v.distinct = true) (ordered : ∀ roles : List Str, v.entry "allowed_roles" = .list (roles.map .str) →
      roles.Pairwise (fun x y => Str.le x y = true)) : toolAccessPolicy.Redumps v a.dump := by
  obtain ⟨d,texts,rfl,known,mode,listed,sorted⟩ := read_iff.mp read
  have same : texts = a.allowedRoles := by
    rw [← sorted,(ordered texts (Dict.get_of_found listed)).insertionSort_eq]
  rw [same] at listed
  have consistent : ModeAndRoles a.dump := same_second.mp (toolAccessPolicy_second.mpr ⟨a,read_dump a⟩).2
  have inside := Redumps.object fields [("access_mode",oneOf ["public","restricted"],_,_),
    ("allowed_roles",Sides.roles,_,_)] rfl (by decide) distinct known (by
      simp only [List.forall_mem_cons]
      exact ⟨⟨mode,.refl _ _⟩,⟨listed,.refl _ _⟩,by simp⟩)
  exact inside.and (same_first.mpr consistent)

section Models

variable [Pydantic]

theorem ToolPolicy.redumps {v : Value} {p : ToolPolicy} (read : ToolPolicy.read v = some p)
    (distinct : v.distinct = true) (passed : toolPolicy.first v)
    (ordered : ∀ roles : List Str, (v.entry "access").entry "allowed_roles" = .list (roles.map .str) →
      roles.Pairwise (fun x y => Str.le x y = true)) : toolPolicy.Redumps v p.dump := by
  obtain ⟨d,confirmation,access,rfl,known,effect,found,lax,present,accessRead⟩ := ToolPolicy.read_iff.mp read
  obtain ⟨_,same,_,each⟩ := object_first.mp passed
  cases same
  obtain ⟨_,again,boolean⟩ := each (Str.lit "requires_confirmation",Sides.boolean) (by simp)
  cases found.symm.trans again
  obtain ⟨b,rfl⟩ := boolean.2
  have equal := lax
  rw [Pydantic.laxBool_bool,Option.some.injEq] at equal
  rw [equal] at found
  rw [Value.entry_dict,Dict.get_of_found present] at ordered
  have accessed := ToolAccessPolicy.redumps accessRead (Value.distinct_of_get distinct present) ordered
  exact Redumps.object ["effect_class","requires_confirmation","access"]
    [("effect_class",oneOf ["read","write","destructive"],_,_),("requires_confirmation",Sides.boolean,_,_),
      ("access",toolAccessPolicy,_,_)] rfl (by decide) distinct known (by
      simp only [List.forall_mem_cons]
      exact ⟨⟨effect,.refl _ _⟩,⟨found,.refl _ _⟩,⟨present,accessed⟩,by simp⟩)

theorem ToolProvenance.redumps {v : Value} {p : ToolProvenance} (read : read v = some p)
    (distinct : v.distinct = true) (passed : toolProvenance.first v) : toolProvenance.Redumps v p.dump := by
  obtain ⟨d,deprecated,rfl,known,operationId,path,method,tags,found,lax,origin⟩ := read_iff.mp read
  obtain ⟨_,same,_,each⟩ := object_first.mp passed
  cases same
  obtain ⟨_,again,boolean⟩ := each (Str.lit "deprecated",Sides.boolean) (by simp)
  cases found.symm.trans again
  obtain ⟨b,rfl⟩ := boolean.2
  rw [Pydantic.laxBool_bool,Option.some.injEq] at lax
  rw [lax] at found
  exact Redumps.object fields [("source_operation_id",reference Patterns.sourceOperationId,_,_),
    ("source_path",text 1 2048,_,_),("source_method",oneOf ["get","post","put","patch","delete"],_,_),
    ("tags",words,_,_),("deprecated",Sides.boolean,_,_),
    ("description_origin",oneOf ["source","generated","assisted","human"],_,_)] rfl (by decide) distinct known (by
      simp only [List.forall_mem_cons]
      exact ⟨⟨operationId,.refl _ _⟩,⟨path,.refl _ _⟩,⟨method,.refl _ _⟩,⟨tags,.refl _ _⟩,⟨found,.refl _ _⟩,
        ⟨origin,.refl _ _⟩,by simp⟩)

/-- JSON mode changes nothing in JSON. -/
theorem jsonMode_self {v out : Value} (json : v.isJson = true) (done : Value.jsonMode v = .ok out) : out = v := by
  induction v using Value.induct generalizing out with
  | list items ih =>
    rw [Value.isJson_list] at json
    have same : ∀ {outs}, Value.jsonModeList items = .ok outs → outs = items := by
      clear done
      induction items with
      | nil =>
        intro outs done
        cases done
        rfl
      | cons item rest tail =>
        intro outs done
        rw [List.forall_mem_cons] at ih json
        rw [Value.jsonModeList] at done
        split at done
        next => cases done
        next first dumped =>
          split at done
          next => cases done
          next more rested =>
            cases done
            rw [ih.1 json.1 dumped,tail ih.2 json.2 rested]
    rw [Value.jsonMode] at done
    split at done
    next outs listed =>
      cases done
      rw [same listed]
    next => cases done
  | dict members ih =>
    rw [Value.isJson_dict] at json
    have same : ∀ {outs}, Value.jsonModeMembers members = .ok outs → outs = members := by
      clear done
      induction members with
      | nil =>
        intro outs done
        cases done
        rfl
      | cons m rest tail =>
        intro outs done
        rw [List.forall_mem_cons] at ih json
        rw [Value.jsonModeMembers] at done
        split at done
        next =>
          split at done
          next => cases done
          next first dumped =>
            split at done
            next => cases done
            next more rested =>
              cases done
              rw [ih.1 json.1 dumped,tail ih.2 json.2 rested]
        next => cases done
    rw [Value.jsonMode] at done
    split at done
    next outs listed =>
      cases done
      rw [same listed]
    next => cases done
  | other kind repr items ih => cases json
  | _ =>
    cases done
    rfl

/-- The roles of a tool stand in ascending order, as its model puts them. -/
def RolesOrdered (v : Value) : Prop :=
  ∀ roles : List Str, ((v.entry "policy").entry "access").entry "allowed_roles" = .list (roles.map .str) →
    roles.Pairwise (fun x y => Str.le x y = true)

theorem ToolDefinition.redumps {v out : Value} {t : ToolDefinition} (read : read v = some t) (dumped : t.dump = .ok out)
    (json : v.isJson = true) (distinct : v.distinct = true) (passed : toolShape.first v) (ordered : RolesOrdered v) :
    toolShape.Redumps v out ∧ out.entry "input_schema" = v.entry "input_schema" ∧
      out.entry "tool_name" = v.entry "tool_name" := by
  obtain ⟨d,operation,policy,provenance,rfl,known,toolName,displayName,description,schemaFound,operationFound,
    operationRead,policyFound,policyRead,provenanceFound,provenanceRead⟩ := read_iff.mp read
  obtain ⟨schema,mode,rfl⟩ := dump_eq_ok.mp dumped
  have plain := Value.isJson_dict.mp json _ (Assoc.mem_of_get schemaFound)
  have same : Value.dict schema = .dict t.inputSchema :=
    jsonMode_self plain (by rw [Value.jsonMode,mode])
  cases same
  obtain ⟨_,same,_,each⟩ := object_first.mp passed.1
  cases same
  obtain ⟨_,again,policyPassed⟩ := each (Str.lit "policy",toolPolicy) (by simp)
  cases policyFound.symm.trans again
  obtain ⟨_,again,provenancePassed⟩ := each (Str.lit "provenance",toolProvenance) (by simp)
  cases provenanceFound.symm.trans again
  rw [RolesOrdered,Value.entry_dict,Dict.get_of_found policyFound] at ordered
  have inside := Redumps.object fields [("tool_name",matching 1 64 Patterns.toolName,_,_),
    ("display_name",text 1 128,_,_),("description",text 1 1024,_,_),("input_schema",toolInputSchema,_,_),
    ("operation",toolOperation,_,_),("policy",toolPolicy,_,_),("provenance",toolProvenance,_,_)]
    rfl (by decide) distinct known (by
      simp only [List.forall_mem_cons]
      exact ⟨⟨toolName,.refl _ _⟩,⟨displayName,.refl _ _⟩,⟨description,.refl _ _⟩,⟨schemaFound,.refl _ _⟩,
        ⟨operationFound,ToolOperation.redumps operationRead (Value.distinct_of_get distinct operationFound)⟩,
        ⟨policyFound,ToolPolicy.redumps policyRead (Value.distinct_of_get distinct policyFound) policyPassed ordered⟩,
        ⟨provenanceFound,ToolProvenance.redumps provenanceRead (Value.distinct_of_get distinct provenanceFound)
          provenancePassed⟩,by simp⟩)
  refine ⟨inside.and modelOnly_first,?_,?_⟩
  · rw [Value.entry_dict,Dict.get_of_found schemaFound]
    rfl
  · rw [Value.entry_dict,Dict.get_of_found toolName]
    rfl

theorem SourceProvenance.redumps {v : Value} {p : SourceProvenance} (read : SourceProvenance.read v = some p)
    (distinct : v.distinct = true) (written : ∃ n, v.entry "byte_length" = .int n) :
    sourceProvenance.Redumps v p.dump := by
  obtain ⟨d,byteLength,rfl,known,format,specVersion,filename,digest,found,lax⟩ := SourceProvenance.read_iff.mp read
  obtain ⟨n,whole⟩ := written
  rw [Value.entry_dict,Dict.get_of_found found] at whole
  subst whole
  rw [Pydantic.laxInt_int,Option.some.injEq] at lax
  rw [lax] at found
  exact Redumps.object SourceProvenance.fields [("format",oneOf ["openapi"],_,_),("spec_version",text 1 16,_,_),
    ("document_filename",text 1 256,_,_),("document_digest",pattern Patterns.digest,_,_),
    ("byte_length",positive,_,_)] rfl (by decide) distinct known (by
      simp only [List.forall_mem_cons]
      exact ⟨⟨format,.refl _ _⟩,⟨specVersion,.refl _ _⟩,⟨filename,.refl _ _⟩,⟨digest,.refl _ _⟩,
        ⟨found,.refl _ _⟩,by simp⟩)

theorem AuditTimestamps.redumps {v : Value} {a : AuditTimestamps} (read : AuditTimestamps.read v = some a)
    (distinct : v.distinct = true) : auditTimestamps.Redumps v a.dump := by
  obtain ⟨d,rfl,known,created,updated,published⟩ := AuditTimestamps.read_iff.mp read
  exact Redumps.object AuditTimestamps.fields [("created_at",plain,_,_),("updated_at",plain,_,_),
    ("published_at",TwoSided.excusing (fun v => v = .null) plain,_,_)] rfl (by decide) distinct known (by
      simp only [List.forall_mem_cons]
      exact ⟨⟨created,.refl _ _⟩,⟨updated,.refl _ _⟩,⟨published,.refl _ _⟩,by simp⟩)

omit [Pydantic] in
theorem exists_between {A B C : Type} {R : A → B → Prop} {S : B → C → Prop} {as : List A} {bs : List B} {cs : List C}
    (first : List.Forall₂ R as bs) (second : List.Forall₂ S bs cs) :
    List.Forall₂ (fun a c => ∃ b, R a b ∧ S b c) as cs := by
  induction first generalizing cs with
  | nil =>
    cases second
    exact .nil
  | cons head _ ih =>
    cases second with
    | cons next rest => exact .cons ⟨_,head,next⟩ (ih rest)

variable [Unicode]

omit [Pydantic] in
theorem RuntimeBinding.redumps {v : Value} {r : RuntimeBinding} (read : RuntimeBinding.read v = some r)
    (distinct : v.distinct = true) : runtimeBinding.Redumps v r.dump := by
  obtain ⟨d,rfl,known,protocol,baseUrl,profile⟩ := RuntimeBinding.read_iff.mp read
  exact Redumps.object RuntimeBinding.fields [("protocol",exactly "http",_,_),("base_url",Sides.baseUrl,_,_),
    ("auth_profile_ref",reference Patterns.opaqueReference,_,_)] rfl (by decide) distinct known (by
      simp only [List.forall_mem_cons]
      exact ⟨⟨protocol,.refl _ _⟩,⟨baseUrl,.refl _ _⟩,⟨profile,.refl _ _⟩,by simp⟩)

/-- The tools are ordered, and the length of the source is written as an integer. -/
def ConnectorSettled (v : Value) : Prop :=
  (∀ t ∈ (v.entry "tools").items, RolesOrdered t) ∧ ∃ n, (v.entry "source").entry "byte_length" = .int n

/-- What a tool and its dump share by name. -/
def ToolKept (v out : Value) : Prop :=
  toolShape.Redumps v out ∧ out.entry "input_schema" = v.entry "input_schema" ∧
    out.entry "tool_name" = v.entry "tool_name"

omit [Unicode] in
theorem ToolKept.names {olds news : List Value} (kept : List.Forall₂ ToolKept olds news) :
    news.map (fun t => t.entry "tool_name") = olds.map (fun t => t.entry "tool_name") := by
  induction kept with
  | nil => rfl
  | cons head _ ih => rw [List.map_cons,List.map_cons,ih,head.2.2]

omit [Unicode] in
theorem tools_redump {olds news : List Value} (kept : List.Forall₂ ToolKept olds news)
    (named : ∀ v ∈ olds, ∃ s, v.entry "tool_name" = .str s)
    (apart : (olds.map (fun t => t.entry "tool_name")).Nodup) : tools.Redumps (.list olds) (.list news) := by
  have filled : olds ≠ [] → news ≠ [] := by
    rintro filled rfl
    exact filled (List.forall₂_nil_right_iff.mp kept)
  have different : Rule.distinct news = true := by
    refine distinct_of_entries ["tool_name"] ?_ ?_
    · intro v member name inside
      obtain ⟨w,old,same⟩ := exists_left kept member
      obtain ⟨s,text⟩ := named w old
      rw [List.mem_singleton.mp inside,same.2.2]
      exact ⟨s,text⟩
    · have single : Function.Injective (fun v : Value => [v]) := fun _ _ same => by simpa using same
      have mapped := (ToolKept.names kept ▸ apart).map single
      rwa [List.map_map] at mapped
  refine ((Redumps.list (kept.imp (fun _ _ both => both.1))).along ?_).along ?_
  · rw [same_first,same_first]
    exact filled
  · rw [schemaOnly_first,schemaOnly_first,Value.items_list,Value.items_list,← kept.length_eq]
    exact fun rest => ⟨rest.1,different⟩

theorem ConnectorDefinition.redumps (engine : SchemaEngine) {v out : Value} {c : ConnectorDefinition}
    (read : ConnectorDefinition.read v = some c) (dumped : c.dump = .ok out) (json : v.isJson = true)
    (distinct : v.distinct = true) (passed : (connectorDefinition engine).first v) (settled : ConnectorSettled v) :
    (connectorDefinition engine).Redumps v out ∧ out.entry "connector_key" = v.entry "connector_key" ∧
      out.entry "lifecycle_state" = v.entry "lifecycle_state" := by
  obtain ⟨d,runtime,source,audit,items,rfl,known,contractVersion,key,displayName,summary,version,state,runtimeFound,
    runtimeRead,sourceFound,sourceRead,toolsFound,each,labels,auditFound,auditRead⟩ := ConnectorDefinition.read_iff.mp read
  obtain ⟨values,done,image⟩ := bind_eq_ok.mp dumped
  cases image
  obtain ⟨shape,names,rest⟩ := passed
  rw [same_first] at names
  rw [schemaOnly_first] at rest
  have listed : (Value.dict d).entry "tools" = .list items := Dict.get_of_found toolsFound
  rw [ConnectorSettled,listed,Value.entry_dict,Dict.get_of_found sourceFound] at settled
  rw [toolNames,listed,Value.items_list] at names
  rw [listed,Value.items_list] at rest
  have inJson := Value.isJson_list.mp (Value.isJson_dict.mp json _ (Assoc.mem_of_get toolsFound))
  have inDistinct := Value.distinct_list.mp (Value.distinct_of_get distinct toolsFound)
  have toolShapes : ∀ t ∈ items, toolShape.first t := by
    obtain ⟨_,same,_,fields⟩ := object_first.mp shape
    cases same
    obtain ⟨_,again,toolsPassed⟩ := fields (Str.lit "tools",Sides.tools) (by simp)
    cases toolsFound.symm.trans again
    obtain ⟨_,same,every⟩ := list_first.mp toolsPassed.1.1
    cases same
    exact every
  have kept : List.Forall₂ ToolKept items values := by
    have both := exists_between each (each_eq_ok.mp done)
    refine ((List.forall₂_and_left items values).mpr ⟨fun t member => member,both⟩).imp ?_
    rintro t out ⟨member,tool,toolRead,toolDumped⟩
    exact ToolDefinition.redumps toolRead toolDumped (inJson t member) (inDistinct t member) (toolShapes t member)
      (settled.1 t member)
  have toolsKept : Sides.tools.Redumps (.list items) (.list values) := by
    refine tools_redump kept (fun t member => ?_) names
    obtain ⟨tool,_,toolRead⟩ := exists_right each member
    obtain ⟨_,_,_,_,rfl,_,name,_⟩ := ToolDefinition.read_iff.mp toolRead
    exact ⟨_,Dict.get_of_found name⟩
  have inside := Redumps.object ConnectorDefinition.fields [("contract_version",Sides.version,_,_),
    ("connector_key",Sides.key,_,_),("display_name",text 1 128,_,_),("summary",text 1 1024,_,_),
    ("version",Sides.version,_,_),("lifecycle_state",oneOf ["draft","published","disabled"],_,_),
    ("runtime",runtimeBinding,_,_),("source",sourceProvenance,_,_),("tools",Sides.tools,_,_),("labels",words,_,_),
    ("audit",auditTimestamps,_,_)] rfl (by decide) distinct known (by
      simp only [List.forall_mem_cons]
      exact ⟨⟨contractVersion,.refl _ _⟩,⟨key,.refl _ _⟩,⟨displayName,.refl _ _⟩,⟨summary,.refl _ _⟩,
        ⟨version,.refl _ _⟩,⟨state,.refl _ _⟩,
        ⟨runtimeFound,RuntimeBinding.redumps runtimeRead (Value.distinct_of_get distinct runtimeFound)⟩,
        ⟨sourceFound,SourceProvenance.redumps sourceRead (Value.distinct_of_get distinct sourceFound) settled.2⟩,
        ⟨toolsFound,toolsKept⟩,⟨labels,.refl _ _⟩,
        ⟨auditFound,AuditTimestamps.redumps auditRead (Value.distinct_of_get distinct auditFound)⟩,by simp⟩)
  have contract : (Value.dict d).entry "contract_version" = .str c.contractVersion := Dict.get_of_found contractVersion
  refine ⟨⟨inside.1,fun _ => ⟨inside.2 shape,?_,?_⟩⟩,?_,?_⟩
  · rw [same_first]
    change (values.map (fun t => t.entry "tool_name")).Nodup
    rw [ToolKept.names kept]
    exact names
  · rw [schemaOnly_first]
    refine ⟨?_,fun t member => ?_⟩
    · obtain ⟨s,text,supported⟩ := rest.1
      rw [contract] at text
      exact ⟨s,text,supported⟩
    · obtain ⟨w,old,_,schema,_⟩ := exists_left kept member
      intro declared found
      exact rest.2 w old declared (schema ▸ found)
  · exact (Dict.get_of_found key).symm
  · exact (Dict.get_of_found state).symm

def SnapshotSignature.dump (s : SnapshotSignature) : Value :=
  .dict [("algorithm",.str "ed25519"),("key_id",.str s.keyId),("value",.str s.value)]

omit [Pydantic] [Unicode] in
theorem SnapshotSignature.redumps {v : Value} {s : SnapshotSignature} (read : SnapshotSignature.read v = some s)
    (distinct : v.distinct = true) : snapshotSignature.Redumps v s.dump := by
  obtain ⟨d,rfl,known,algorithm,keyId,value⟩ := SnapshotSignature.read_iff.mp read
  exact Redumps.object SnapshotSignature.fields [("algorithm",exactly "ed25519",_,_),
    ("key_id",matching 2 64 Patterns.keyId,_,_),("value",pattern Patterns.signatureValue,_,_)]
    rfl (by decide) distinct known (by
      simp only [List.forall_mem_cons]
      exact ⟨⟨algorithm,.refl _ _⟩,⟨keyId,.refl _ _⟩,⟨value,.refl _ _⟩,by simp⟩)

/-- An absent signature is dumped as `None`. -/
def DeploymentSnapshot.dump (s : DeploymentSnapshot) : Except PyExc Value := do
  let connectors ← each ConnectorDefinition.dump s.connectors
  return .dict [("contract_version",.str s.contractVersion),("snapshot_id",.str s.snapshotId),
    ("deployment_key",.str s.deploymentKey),("revision",.int s.revision),("created_at",.str s.createdAt),
    ("snapshot_digest",.str s.snapshotDigest),("connectors",.list connectors),
    ("signature",(s.signature.map SnapshotSignature.dump).getD .null)]

/-- The connectors are settled, the revision is written as an integer, and there is a signature. -/
def SnapshotSettled (v : Value) : Prop :=
  (∀ c ∈ (v.entry "connectors").items, ConnectorSettled c) ∧ (∃ n, v.entry "revision" = .int n) ∧
    v.entry "signature" ≠ .null

/-- The members of a snapshot that carries a signature. -/
theorem snapshotShape_signed {d : Dict} (signed : Dict.get d "signature" ≠ .null) :
    snapshotShape.first (.dict d) ↔
      (Sides.object (snapshotFields ++ [(Str.lit "signature",snapshotSignature)])).first (.dict d) := by
  have names : (snapshotFields ++ [(Str.lit "signature",snapshotSignature)]).map (·.1) = DeploymentSnapshot.fields := rfl
  have present : ∀ w, Assoc.get (Str.lit "signature") d = some w → Dict.get d "signature" = w :=
    fun w found => Dict.get_of_found found
  rw [snapshotShape]
  constructor
  · rintro ⟨⟨closed,each⟩,signature,_⟩
    refine ⟨names ▸ closed,members_first.mpr ?_⟩
    rw [List.forall_mem_append]
    refine ⟨members_first.mp each,?_⟩
    rw [List.forall_mem_singleton]
    obtain ⟨_,same,passed⟩ := signature.resolve_left signed
    cases same
    cases found : Assoc.get (Str.lit "signature") d with
    | none => exact absurd (by simp [Dict.get,found]) signed
    | some w => exact ⟨w,rfl,present w found ▸ passed⟩
  · rintro ⟨closed,each⟩
    have each := members_first.mp each
    rw [List.forall_mem_append,List.forall_mem_singleton] at each
    obtain ⟨w,found,passed⟩ := each.2
    rw [← present w found] at passed
    refine ⟨⟨names ▸ closed,members_first.mpr each.1⟩,Or.inr ⟨_,rfl,passed⟩,?_⟩
    rw [schemaOnly_first]
    rintro _ ⟨⟩ null
    exact signed (present _ null)

theorem DeploymentSnapshot.redumps (engine : SchemaEngine) {v out : Value} {s : DeploymentSnapshot}
    (read : DeploymentSnapshot.read v = some s) (dumped : s.dump = .ok out) (json : v.isJson = true)
    (distinct : v.distinct = true) (passed : (deploymentSnapshot engine).first v) (settled : SnapshotSettled v) :
    (deploymentSnapshot engine).Redumps v out := by
  obtain ⟨d,revision,items,rfl,known,contractVersion,snapshotId,key,revisionFound,lax,createdAt,digest,found,each,
    signature⟩ := DeploymentSnapshot.read_iff.mp read
  obtain ⟨values,done,image⟩ := bind_eq_ok.mp dumped
  cases image
  obtain ⟨⟨⟨shape,consistent⟩,rules⟩,supported⟩ := passed
  rw [same_first] at consistent
  rw [schemaOnly_first] at supported
  obtain ⟨inside,⟨n,whole⟩,signed⟩ := settled
  have listed : (Value.dict d).entry "connectors" = .list items := Dict.get_of_found found
  rw [listed,Value.items_list] at inside
  rw [Value.entry_dict,Dict.get_of_found revisionFound] at whole
  subst whole
  rw [Pydantic.laxInt_int,Option.some.injEq] at lax
  rw [lax] at revisionFound
  rw [Value.entry_dict] at signed
  obtain ⟨g,signatureRead,present⟩ := signature.resolve_left (fun absent => signed absent.1)
  have signatureFound : Assoc.get (Str.lit "signature") d = some (Dict.get d "signature") := by
    cases there : Assoc.get (Str.lit "signature") d with
    | none => exact absurd (by simp [Dict.get,there]) signed
    | some w => rw [Dict.get_of_found there]
  have inJson := Value.isJson_list.mp (Value.isJson_dict.mp json _ (Assoc.mem_of_get found))
  have inDistinct := Value.distinct_list.mp (Value.distinct_of_get distinct found)
  have connectorsPassed : ∀ c ∈ items, (connectorDefinition engine).first c := by
    have fields := members_first.mp shape.1.2
    obtain ⟨_,again,shapes,_⟩ := fields (Str.lit "connectors",
      (Sides.list connectorShape).and (schemaOnly (fun v => v.items.length ≤ 64))) (by simp [snapshotFields])
    cases found.symm.trans again
    obtain ⟨_,same,every⟩ := list_first.mp shapes
    cases same
    intro c member
    have here : c ∈ ((Value.dict d).entry "connectors").items := by rwa [listed]
    exact ⟨every c member,rules c here⟩
  have kept : List.Forall₂ (fun c out => (connectorDefinition engine).Redumps c out ∧
      out.entry "connector_key" = c.entry "connector_key" ∧
      out.entry "lifecycle_state" = c.entry "lifecycle_state") items values := by
    have both := exists_between each (each_eq_ok.mp done)
    refine ((List.forall₂_and_left items values).mpr ⟨fun c member => member,both⟩).imp ?_
    rintro c out ⟨member,connector,connectorRead,connectorDumped⟩
    exact ConnectorDefinition.redumps engine connectorRead connectorDumped (inJson c member) (inDistinct c member)
      (connectorsPassed c member) (inside c member)
  have connectorsKept : Redumps ((Sides.list connectorShape).and (schemaOnly (fun v => v.items.length ≤ 64)))
      (.list items) (.list values) := by
    have shapes : List.Forall₂ connectorShape.Redumps items values := by
      refine ((List.forall₂_and_left items values).mpr ⟨fun c member => member,kept⟩).imp ?_
      rintro c out ⟨member,redumped,_⟩
      exact ⟨redumped.1,fun _ => (redumped.2 (connectorsPassed c member)).1⟩
    refine (Redumps.list shapes).along (fun rest => ?_)
    rw [schemaOnly_first,Value.items_list] at rest ⊢
    exact kept.length_eq ▸ rest
  have row := Redumps.object DeploymentSnapshot.fields [("contract_version",snapshotVersion,_,_),
    ("snapshot_id",pattern Patterns.snapshotId,_,_),("deployment_key",Sides.key,_,_),("revision",positive,_,_),
    ("created_at",plain,_,_),("snapshot_digest",pattern Patterns.digest,_,_),
    ("connectors",(Sides.list connectorShape).and (schemaOnly (fun v => v.items.length ≤ 64)),_,_),
    ("signature",snapshotSignature,_,_)] rfl (by decide) distinct known (by
      simp only [List.forall_mem_cons]
      exact ⟨⟨contractVersion,.refl _ _⟩,⟨snapshotId,.refl _ _⟩,⟨key,.refl _ _⟩,⟨revisionFound,.refl _ _⟩,
        ⟨createdAt,.refl _ _⟩,⟨digest,.refl _ _⟩,⟨found,connectorsKept⟩,
        ⟨signatureFound,SnapshotSignature.redumps signatureRead (Value.distinct_of_get distinct signatureFound)⟩,
        by simp⟩)
  rw [present]
  refine ⟨row.1,fun _ => ⟨⟨⟨?_,?_⟩,?_⟩,?_⟩⟩
  · refine (snapshotShape_signed ?_).mpr (row.2 ((snapshotShape_signed signed).mp shape))
    intro null
    cases null
  · rw [same_first]
    have keys : values.map (fun c => c.entry "connector_key") = items.map (fun c => c.entry "connector_key") := by
      clear * - kept
      induction kept with
      | nil => rfl
      | cons head _ ih => rw [List.map_cons,List.map_cons,ih,head.2.1]
    rw [ConnectorsConsistent,listed,Value.items_list] at consistent
    constructor
    · change (values.map (fun c => c.entry "connector_key")).Nodup
      rw [keys]
      exact consistent.1
    · intro c member
      obtain ⟨old,before,_,_,state⟩ := exists_left kept member
      rw [state]
      exact consistent.2 old before
  · intro c member
    obtain ⟨old,before,redumped,_⟩ := exists_left kept member
    exact (redumped.2 (connectorsPassed old before)).2
  · rw [schemaOnly_first]
    obtain ⟨text,same,accepted⟩ := supported
    rw [Value.entry_dict,Dict.get_of_found contractVersion] at same
    exact ⟨text,same,accepted⟩

/-- What JSON text can hold: finite numbers, text without lone surrogates, each key once. -/
structure JsonDocument (v : Value) : Prop where
  serializable : serializable v = true
  scalar : v.scalar = true
  distinct : v.distinct = true

omit [Pydantic] [Unicode] in
theorem JsonDocument.isJson {v : Value} (document : JsonDocument v) : v.isJson = true := by
  have leaves := document.serializable
  clear document
  induction v using Value.induct with
  | list items ih =>
    rw [ToolLayer.serializable,Value.every_list] at leaves
    exact Value.isJson_list.mpr (fun v member => ih v member (leaves v member))
  | dict members ih =>
    rw [ToolLayer.serializable,Value.every_dict] at leaves
    exact Value.isJson_dict.mpr (fun m member => ih m member (leaves m member).2)
  | other kind repr json ih => cases leaves
  | _ => rfl

omit [Pydantic] [Unicode] in
theorem JsonDocument.every {v : Value} (document : JsonDocument v) :
    v.every (fun | .other _ _ _ => false | _ => true) Str.scalar = true := by
  refine Value.every_of_every (fun v leaf => ?_) (fun _ both => ?_)
    (Value.every_and document.serializable document.scalar)
  · rw [Bool.and_eq_true] at leaf
    cases v with
    | other kind repr json => cases leaf.1
    | _ => rfl
  · rw [Bool.and_eq_true] at both
    exact both.2

end Models

section Desk

local instance roundTripTables : Unicode := Unicode.asciiOnly

local instance roundTripModels : Pydantic := Pydantic.exact

end Desk

end ToolLayer
