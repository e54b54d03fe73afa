import ToolLayer.ControlPlane.Publication
import ToolLayer.OpenApi.Leaves
import ToolLayer.OpenApi.Parsing

/-! Which uploads are JSON to the last node, and whether the analysis stored of them is. -/
namespace ToolLayer.OpenApi
open Python Kit Kit.Result

/-- What the shape check looks at in a node that is no container. -/
def finiteNumber : Value → Bool
  | .float x =>
    match x.number with
    | .finite _ _ => true
    | _ => false
  | _ => true

def jsonNode : Value → Bool
  | .other _ _ _ => false
  | _ => true

/-- An integer that can be written in decimal. -/
def printableNumber : Value → Bool
  | .int n => Decimal.printable n
  | _ => true

/-- Null, a boolean, an integer, a finite float or a text. -/
def pureNode (v : Value) : Bool := jsonNode v && finiteNumber v

/-- `json.dumps` can write it as strict JSON. -/
def writableNode (v : Value) : Bool := pureNode v && printableNumber v

/-- JSON to the last node. -/
def PureJson (v : Value) : Prop := Clean pureNode v

section Nodes

variable {first second : Value → Bool}

theorem clean_and {v : Value} : Clean (fun v => first v && second v) v ↔ Clean first v ∧ Clean second v := by
  constructor
  · intro both
    exact ⟨Value.every_of_every (fun _ held => (Bool.and_eq_true_iff.mp held).1) (fun _ held => held) both,
      Value.every_of_every (fun _ held => (Bool.and_eq_true_iff.mp held).2) (fun _ held => held) both⟩
  · rintro ⟨one,two⟩
    exact Value.every_and one two

theorem clean_jsonNode {v : Value} : Clean jsonNode v ↔ v.isJson = true := by
  induction v using Value.induct with
  | list items ih =>
    rw [clean_list,Value.isJson_list]
    exact forall_congr' (fun v => ⟨fun all member => (ih v member).mp (all member),fun all member => (ih v member).mpr (all member)⟩)
  | dict members ih =>
    rw [clean_dict,Value.isJson_dict]
    exact forall_congr' (fun m => ⟨fun all member => (ih m member).mp (all member),fun all member => (ih m member).mpr (all member)⟩)
  | _ => exact Iff.rfl

theorem pureJson_iff {v : Value} : PureJson v ↔ v.isJson = true ∧ Clean finiteNumber v := by
  rw [← clean_jsonNode]
  exact clean_and

theorem lenient_pureNode : Lenient pureNode := ⟨rfl,fun _ => rfl,fun _ => rfl⟩

theorem lenient_printableNumber : Lenient printableNumber := ⟨rfl,fun _ => rfl,fun _ => rfl⟩

theorem lenient_writableNode : Lenient writableNode := ⟨rfl,fun _ => rfl,fun _ => rfl⟩

end Nodes

/-- The worklist reaches every node below the ones it starts with. -/
theorem enforceShape_visits {limits : SourceLimits} {left : Nat} {stack : List (Value × Nat)}
    (done : enforceShape limits left stack = .ok ()) : ∀ entry ∈ stack, Clean finiteNumber entry.1 := by
  induction left generalizing stack with
  | zero =>
    cases stack with
    | nil => simp
    | cons top rest => cases done
  | succ left ih =>
    cases stack with
    | nil => simp
    | cons top rest =>
      obtain ⟨node,depth⟩ := top
      rw [enforceShape] at done
      split at done
      next next_ step =>
        have visited := ih done
        obtain ⟨_,step⟩ := refuse_bind_eq_ok.mp step
        rw [List.forall_mem_cons]
        cases node with
        | dict members =>
          cases step
          rw [List.forall_mem_append] at visited
          refine ⟨clean_dict.mpr (fun m member => ?_),visited.2⟩
          exact visited.1 (m.2,depth + 1) (List.mem_reverse.mpr (List.mem_map_of_mem member))
        | list items =>
          cases step
          rw [List.forall_mem_append] at visited
          refine ⟨clean_list.mpr (fun v member => ?_),visited.2⟩
          exact visited.1 (v,depth + 1) (List.mem_reverse.mpr (List.mem_map_of_mem member))
        | float x =>
          dsimp only at step
          split at step
          next finite =>
            cases step
            exact ⟨by rw [Clean,Value.every,finiteNumber,finite],visited⟩
          next => cases step
        | _ =>
          cases step
          exact ⟨rfl,visited⟩
      next => cases done

end ToolLayer.OpenApi

namespace ToolLayer.ControlPlane
open Python Kit Kit.Result OpenApi

/-- `json.dumps(…, allow_nan=False)`. -/
def strictOptions : Json.Options := { Json.Options.default with allowNan := false }

/-- It can be written as strict JSON. -/
def Storable (d : Dict) : Prop := ∃ text, (Json.dumps strictOptions (.dict d) : Except PyExc Str) = .ok text

theorem unwritable_strict {v : Value} : (Json.unwritable strictOptions v : Option PyExc) = none ↔ Clean writableNode v := by
  induction v using Value.induct with
  | list items ih =>
    rw [clean_list,Json.unwritable]
    induction items with
    | nil => simp [Json.unwritableList]
    | cons v rest tail =>
      rw [List.forall_mem_cons] at ih ⊢
      rw [Json.unwritableList,Option.or_eq_none_iff,ih.1,tail ih.2]
  | dict members ih =>
    rw [clean_dict,Json.unwritable]
    induction members with
    | nil => simp [Json.unwritableMembers]
    | cons m rest tail =>
      rw [List.forall_mem_cons] at ih ⊢
      rw [Json.unwritableMembers,Option.or_eq_none_iff,ih.1,tail ih.2]
  | int n =>
    rw [Json.unwritable,Clean,Value.every,writableNode,printableNumber]
    cases printable : Decimal.printable n <;> simp [pureNode,jsonNode,finiteNumber]
  | float x =>
    have same : writableNode (.float x) = finiteNumber (.float x) := by simp [writableNode,pureNode,jsonNode,printableNumber]
    rw [Json.unwritable,Clean,Value.every,same,finiteNumber]
    cases x.number <;> simp [strictOptions]
  | other kind repr json => simp [Json.unwritable,Clean,Value.every,writableNode,pureNode,jsonNode]
  | _ => exact iff_of_true rfl rfl

theorem storable_iff {d : Dict} : Storable d ↔ Clean writableNode (.dict d) := by
  rw [← unwritable_strict,Storable,Json.dumps]
  cases (Json.unwritable strictOptions (.dict d) : Option PyExc) with
  | none => simp
  | some e => simp

section Dumps

variable [Pydantic] {leaf : Value → Bool}

/-- JSON mode leaves JSON as it is. -/
theorem jsonMode_of_json {v : Value} (json : v.isJson = true) {out : Value} (done : v.jsonMode = .ok out) : out = v := by
  induction v using Value.induct generalizing out with
  | list items ih =>
    rw [Value.isJson_list] at json
    have same : ∀ out, Value.jsonModeList items = .ok out → out = items := by
      clear done
      induction items with
      | nil => exact fun out done => (Except.ok.inj done).symm
      | cons v rest tail =>
        intro out done
        rw [List.forall_mem_cons] at ih json
        rw [Value.jsonModeList] at done
        split at done
        next => cases done
        next first dumped =>
          split at done
          next => cases done
          next others listed =>
            cases done
            rw [ih.1 json.1 dumped,tail ih.2 json.2 others listed]
    rw [Value.jsonMode] at done
    split at done
    next out listed =>
      cases done
      rw [same out listed]
    next => cases done
  | dict members ih =>
    rw [Value.isJson_dict] at json
    have same : ∀ out, Value.jsonModeMembers members = .ok out → out = members := by
      clear done
      induction members with
      | nil => exact fun out done => (Except.ok.inj done).symm
      | cons m rest tail =>
        intro out done
        obtain ⟨key,value⟩ := m
        rw [List.forall_mem_cons] at ih json
        rw [Value.jsonModeMembers] at done
        split at done
        next =>
          split at done
          next => cases done
          next first dumped =>
            split at done
            next => cases done
            next others listed =>
              cases done
              have first_ : first = value := ih.1 json.1 dumped
              rw [first_,tail ih.2 json.2 others listed]
        next => cases done
    rw [Value.jsonMode] at done
    split at done
    next out listed =>
      cases done
      rw [same out listed]
    next => cases done
  | other kind repr json_ => cases json
  | _ => exact (Except.ok.inj done).symm

omit [Pydantic] in
theorem clean_textOrNull (lenient : Lenient leaf) (text : Option Str) : Clean leaf (textOrNull text) := by
  cases text with
  | none => exact lenient.null
  | some s => exact lenient.str s

omit [Pydantic] in
theorem clean_operationDump (lenient : Lenient leaf) (o : ToolOperation) : Clean leaf o.dump := by
  have binding : ∀ b : ArgumentBinding, Clean leaf b.dump := by
    intro b
    rw [ArgumentBinding.dump,clean_dict]
    simp only [List.forall_mem_cons]
    exact ⟨lenient.str _,lenient.str _,lenient.str _,by simp⟩
  have media : Clean leaf (ToolOperation.mediaType o.jsonBody) := by
    cases o.jsonBody with
    | false => exact lenient.null
    | true => exact lenient.str _
  rw [ToolOperation.dump,clean_dict]
  simp only [List.forall_mem_cons]
  refine ⟨lenient.str _,lenient.str _,lenient.str _,clean_list.mpr ?_,media,by simp⟩
  rw [List.forall_mem_map]
  exact fun b _ => binding b

/-- Beside its schema a dumped tool holds texts and flags. -/
theorem clean_dumpWith (lenient : Lenient leaf) (t : ToolDefinition) {schema : Dict} :
    Clean leaf (t.dumpWith schema) ↔ Clean leaf (.dict schema) := by
  have access : Clean leaf t.policy.access.dump := by
    rw [ToolAccessPolicy.dump,clean_dict]
    simp only [List.forall_mem_cons]
    exact ⟨lenient.str _,lenient.clean_texts _,by simp⟩
  have policy : Clean leaf t.policy.dump := by
    rw [ToolPolicy.dump,clean_dict]
    simp only [List.forall_mem_cons]
    exact ⟨lenient.str _,lenient.bool _,access,by simp⟩
  have provenance : Clean leaf t.provenance.dump := by
    rw [ToolProvenance.dump,clean_dict]
    simp only [List.forall_mem_cons]
    exact ⟨clean_textOrNull lenient _,lenient.str _,lenient.str _,lenient.clean_texts _,lenient.bool _,lenient.str _,by simp⟩
  rw [ToolDefinition.dumpWith,clean_dict]
  simp only [List.forall_mem_cons]
  constructor
  · rintro ⟨_,_,_,held,_⟩
    exact held
  · intro held
    exact ⟨lenient.str _,lenient.str _,lenient.str _,held,clean_operationDump lenient _,policy,provenance,by simp⟩

theorem clean_dumpTool (lenient : Lenient leaf) {tool : Option ToolDefinition} {out : Value}
    (json : ∀ t, tool = some t → (Value.dict t.inputSchema).isJson = true) (done : dumpTool tool = .ok out) :
    Clean leaf out ↔ ∀ t, tool = some t → Clean leaf (.dict t.inputSchema) := by
  cases tool with
  | none =>
    cases done
    exact iff_of_true lenient.null (fun _ none_ => nomatch none_)
  | some t =>
    obtain ⟨schema,dumped,rfl⟩ := ToolDefinition.dump_eq_ok.mp done
    have same : schema = t.inputSchema := by
      have whole : (Value.dict t.inputSchema).jsonMode = .ok (.dict schema) := by rw [Value.jsonMode,dumped]
      exact Value.dict.inj (jsonMode_of_json (json t rfl) whole)
    rw [clean_dumpWith lenient,same]
    constructor
    · rintro held _ ⟨⟩
      exact held
    · exact fun held => held t rfl

omit [Pydantic] in
theorem clean_diagnostics (lenient : Lenient leaf) (diagnostics : List Diagnostic) :
    Clean leaf (.list (diagnostics.map diagnosticDict)) := by
  rw [clean_list,List.forall_mem_map]
  intro d _
  rw [diagnosticDict,clean_dict]
  simp only [List.forall_mem_cons]
  exact ⟨lenient.str _,lenient.str _,lenient.str _,lenient.str _,clean_textOrNull lenient _,by simp⟩

theorem clean_serializeOperation (lenient : Lenient leaf) {o : AnalyzedOperation} {out : Value}
    (json : ∀ t, o.tool = some t → (Value.dict t.inputSchema).isJson = true) (done : serializeOperation o = .ok out) :
    Clean leaf out ↔ o.Clean leaf := by
  obtain ⟨tool,dumped,done⟩ := bind_eq_ok.mp done
  cases done
  have tool_ := clean_dumpTool lenient json dumped
  rw [clean_dict]
  simp only [List.forall_mem_cons]
  constructor
  · rintro ⟨_,_,_,_,source,made,_⟩
    exact ⟨source,tool_.mp made⟩
  · rintro ⟨source,made⟩
    exact ⟨lenient.str _,lenient.str _,lenient.str _,lenient.str _,source,tool_.mpr made,clean_diagnostics lenient _,by simp⟩

theorem clean_serializeOperations (lenient : Lenient leaf) {operations : List AnalyzedOperation} {out : List Value}
    (json : ∀ o ∈ operations, ∀ t, o.tool = some t → (Value.dict t.inputSchema).isJson = true)
    (related : List.Forall₂ (fun o v => serializeOperation o = .ok v) operations out) :
    Clean leaf (.list out) ↔ ∀ o ∈ operations, o.Clean leaf := by
  rw [clean_list]
  induction related with
  | nil => simp
  | cons first _ ih =>
    rw [List.forall_mem_cons] at json
    rw [List.forall_mem_cons,List.forall_mem_cons,ih json.2,clean_serializeOperation lenient json.1 first]

/-- What a serialized analysis holds, its texts apart. -/
theorem clean_serializeAnalysis (lenient : Lenient leaf) {analysis : AnalysisResult} {result : Dict}
    (json : ∀ o ∈ analysis.operations, ∀ t, o.tool = some t → (Value.dict t.inputSchema).isJson = true)
    (done : serializeAnalysis analysis = .ok result) :
    Clean leaf (.dict result) ↔ ∀ o ∈ analysis.operations, o.Clean leaf := by
  obtain ⟨operations,listed,done⟩ := bind_eq_ok.mp done
  cases done
  have each_ := clean_serializeOperations lenient json (each_eq_ok.mp listed)
  rw [clean_dict]
  simp only [List.forall_mem_cons]
  constructor
  · rintro ⟨_,_,_,_,_,_,held,_⟩
    exact each_.mp held
  · intro held
    exact ⟨lenient.str _,lenient.str _,lenient.str _,lenient.str _,clean_textOrNull lenient _,clean_diagnostics lenient _,
      each_.mpr held,by simp⟩

end Dumps

section Loading

variable [Pydantic] [Unicode] {libraries : Libraries}

/-- The document is JSON throughout, and whatever is analyzed of it can be stored as strict JSON. -/
def StaysJson (loaded : LoadedDocument) : Prop :=
  PureJson (.dict loaded.document) ∧ ∀ limits override analysis result,
    analyzeDocument limits loaded override = .ok analysis → serializeAnalysis analysis = .ok result → Storable result

/-- Python writes the integers of every analyzed operation in decimal: they have no more than 4300 digits. -/
def ShortIntegers (loaded : LoadedDocument) : Prop := ∀ limits override analysis result,
  analyzeDocument limits loaded override = .ok analysis → serializeAnalysis analysis = .ok result →
    ∀ o ∈ analysis.operations, o.Clean printableNumber

omit [Pydantic] [Unicode] in
theorem parseJson_eq_ok {text : Str} {parsed : Parsed} (done : parseJson libraries text = .ok parsed) :
    libraries.jsonLoads text = .ok parsed := by
  unfold parseJson at done
  split at done
  next found =>
    cases done
    exact found
  next =>
    split at done
    next => cases done
    next => split at done <;> cases done

omit [Pydantic] [Unicode] in
theorem parseYaml_eq_ok {text : Str} {parsed : Parsed} (done : parseYaml libraries text = .ok parsed) :
    libraries.yamlData text = .ok (some parsed) := by
  obtain ⟨_,_,done⟩ := bind_eq_ok.mp done
  split at done
  next found =>
    cases done
    assumption
  next => cases done
  next =>
    split at done
    next => cases done
    next =>
      split at done
      next => cases done
      next => split at done <;> cases done

/-- What the library of its format makes of a text. -/
def Reads (libraries : Libraries) (text : Str) (parsed : Parsed) : Prop :=
  if looksLikeJson text = true then libraries.jsonLoads text = .ok parsed else libraries.yamlData text = .ok (some parsed)

omit [Pydantic] [Unicode] in
/-- A loaded document is what its text was read as, and its numbers were looked at. -/
theorem loadDocument_reads {limits : SourceLimits} {raw : Bytes} {filename : Str} {loaded : LoadedDocument}
    (load : loadDocument libraries.parsers limits raw filename = .ok loaded) : ∃ text parsed,
      checkSource limits raw = .ok text ∧ Reads libraries text parsed ∧ parsed.value = .dict loaded.document ∧
      Clean finiteNumber (.dict loaded.document) := by
  obtain ⟨text,source,load⟩ := bind_eq_ok.mp load
  obtain ⟨⟨⟨root,distinct⟩,sourceFormat⟩,parse,load⟩ := bind_eq_ok.mp load
  have reads : Reads libraries text ⟨root,distinct⟩ := by
    unfold parseSource at parse
    unfold Reads looksLikeJson
    dsimp only at parse
    split at parse
    next json =>
      rw [if_pos json]
      obtain ⟨parsed,done,parse⟩ := bind_eq_ok.mp parse
      cases parse
      exact parseJson_eq_ok done
    next other =>
      rw [if_neg other]
      obtain ⟨parsed,done,parse⟩ := bind_eq_ok.mp parse
      cases parse
      exact parseYaml_eq_ok done
  cases root with
  | dict document =>
    obtain ⟨_,shape,load⟩ := bind_eq_ok.mp load
    obtain ⟨_,_,load⟩ := bind_eq_ok.mp load
    have visited := enforceShape_visits shape (.dict document,0) (List.mem_singleton_self _)
    split at load
    next paths found =>
      cases load
      exact ⟨text,_,source,reads,rfl,visited⟩
    next => cases load
  | _ => cases load

/-- A loaded document stays JSON exactly when its text is JSON, or YAML that is read without
the types of YAML's own, and no analyzed operation holds an integer that is too long to be
written; none does if the document holds none. -/
theorem loaded_staysJson_iff (json : ∀ text parsed, libraries.jsonLoads text = .ok parsed → parsed.value.isJson = true)
    {limits : SourceLimits} {raw : Bytes} {filename : Str} {loaded : LoadedDocument}
    (load : loadDocument libraries.parsers limits raw filename = .ok loaded) :
    (StaysJson loaded ↔ (∀ text, checkSource limits raw = .ok text → looksLikeJson text = false →
      ∀ parsed, libraries.yamlData text = .ok (some parsed) → parsed.value.isJson = true) ∧ ShortIntegers loaded) ∧
    (Clean printableNumber (.dict loaded.document) → ShortIntegers loaded) := by
  obtain ⟨text,parsed,source,reads,same,finite⟩ := loadDocument_reads load
  have pure_iff : PureJson (.dict loaded.document) ↔ ∀ text, checkSource limits raw = .ok text → looksLikeJson text = false →
      ∀ parsed, libraries.yamlData text = .ok (some parsed) → parsed.value.isJson = true := by
    rw [pureJson_iff,and_iff_left finite,← same]
    constructor
    · intro held other again yaml parsed' read
      rw [source] at again
      cases again
      rw [Reads,if_neg (by simp [yaml]),read] at reads
      cases reads
      exact held
    · intro held
      unfold Reads at reads
      split at reads
      next => exact json text parsed reads
      next yaml => exact held text source (by simpa using yaml) parsed reads
  refine ⟨?_,fun short limits' override analysis result analyzed _ =>
    clean_analyzeDocument lenient_printableNumber short analyzed⟩
  rw [← pure_iff,StaysJson]
  refine and_congr_right (fun pure_ => ?_)
  refine forall_congr' fun limits' => forall_congr' fun override => forall_congr' fun analysis => forall_congr' fun result =>
    forall_congr' fun analyzed => forall_congr' fun serialized => ?_
  have held := clean_analyzeDocument lenient_pureNode pure_ analyzed
  rw [storable_iff,clean_serializeAnalysis lenient_writableNode
    (fun o member t made => (pureJson_iff.mp ((held o member).schema t made)).1) serialized]
  refine forall_congr' fun o => forall_congr' fun member => ?_
  constructor
  · intro both
    exact ⟨(clean_and.mp both.source).2,fun t made => (clean_and.mp (both.schema t made)).2⟩
  · intro short
    exact ⟨clean_and.mpr ⟨(held o member).source,short.source⟩,
      fun t made => clean_and.mpr ⟨(held o member).schema t made,short.schema t made⟩⟩

end Loading

section Dates

local instance dateUnicode : Unicode := Unicode.asciiOnly
local instance datePydantic : Pydantic := Pydantic.exact

/-- A description that says when its operation was reviewed. -/
def datedDocument (reviewed : Value) : Value :=
  .dict [("openapi",.str "3.0.0"),("paths",.dict [("/health",.dict [("get",.dict [("summary",.str "Health"),
    ("x-reviewed",reviewed)])])])]

def datedText (reviewed : Str) : Str :=
  Str.lit "openapi: 3.0.0\npaths:\n  /health:\n    get:\n      summary: Health\n      x-reviewed: " ++ reviewed ++ Str.lit "\n"

/-- What the safe loader makes of an unquoted date. -/
def reviewDate : Value := .other "datetime.date" "datetime.date(2026, 1, 1)" [.str "2026-01-01"]

def dateLibraries : Libraries where
  jsonLoads _ := .error .valueError
  yamlLoader _ := .ok ()
  yamlData text := if text = datedText "2026-01-01" then .ok (some ⟨datedDocument reviewDate,by decide⟩)
    else if text = datedText "'2026-01-01'" then .ok (some ⟨datedDocument (.str "2026-01-01"),by decide⟩)
    else .error .yamlError

def storeDated (reviewed : Str) : Except PyExc (LoadedDocument × AnalysisResult × Dict) := do
  let loaded ← loadDocument dateLibraries.parsers {} (Utf8.bytes (datedText reviewed)) "api.yaml"
  let analysis ← analyzeDocument {} loaded none
  let result ← serializeAnalysis analysis
  return (loaded,analysis,result)

theorem storeDated_ok : okWith (fun run : LoadedDocument × AnalysisResult × Dict =>
      !(Value.dict run.1.document).isJson && (Json.unwritable strictOptions (.dict run.2.2) : Option PyExc).isSome)
    (storeDated "2026-01-01") = true := by
  decide +kernel

theorem loadQuoted_ok : okWith (fun loaded : LoadedDocument =>
      (Value.dict loaded.document).every printableNumber (fun _ => true))
    (loadDocument dateLibraries.parsers {} (Utf8.bytes (datedText "'2026-01-01'")) "api.yaml") = true := by
  decide +kernel

/-- A date in quotes is a text. -/
theorem loaded_staysJson_quoted : ∃ loaded, loadDocument dateLibraries.parsers {}
    (Utf8.bytes (datedText "'2026-01-01'")) "api.yaml" = .ok loaded ∧ StaysJson loaded := by
  obtain ⟨loaded,load,short⟩ := exists_of_okWith loadQuoted_ok
  have json : ∀ text parsed, dateLibraries.jsonLoads text = .ok parsed → parsed.value.isJson = true := fun _ _ none_ => nomatch none_
  have holds := loaded_staysJson_iff json load
  refine ⟨loaded,load,holds.1.mpr ⟨?_,holds.2 short⟩⟩
  intro text source _ parsed read
  have same : checkSource {} (Utf8.bytes (datedText "'2026-01-01'")) = .ok (datedText "'2026-01-01'") := by decide +kernel
  rw [same] at source
  cases source
  rw [dateLibraries] at read
  dsimp only at read
  rw [if_neg (by decide),if_pos rfl] at read
  cases read
  decide

/-- A date in an operation is loaded, analyzed and serialized, and cannot be stored. -/
theorem date_not_storable : ∃ loaded analysis result,
    loadDocument dateLibraries.parsers {} (Utf8.bytes (datedText "2026-01-01")) "api.yaml" = .ok loaded ∧
    ¬ PureJson (.dict loaded.document) ∧ analyzeDocument {} loaded none = .ok analysis ∧
    serializeAnalysis analysis = .ok result ∧ ¬ Storable result ∧ ¬ StaysJson loaded := by
  obtain ⟨⟨loaded,analysis,result⟩,ran,checked⟩ := exists_of_okWith storeDated_ok
  obtain ⟨_,load,ran⟩ := bind_eq_ok.mp ran
  obtain ⟨_,analyzed,ran⟩ := bind_eq_ok.mp ran
  obtain ⟨_,serialized,ran⟩ := bind_eq_ok.mp ran
  cases ran
  rw [Bool.and_eq_true,Bool.not_eq_true'] at checked
  have impure : ¬ PureJson (.dict loaded.document) := by
    intro pure_
    have json := (pureJson_iff.mp pure_).1
    rw [checked.1] at json
    cases json
  refine ⟨loaded,analysis,result,load,impure,analyzed,serialized,?_,fun stays => impure stays.1⟩
  rw [storable_iff,← unwritable_strict]
  intro none_
  have some_ := checked.2
  rw [none_] at some_
  cases some_

end Dates

end ToolLayer.ControlPlane
