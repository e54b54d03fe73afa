import ToolLayer.Contracts.Refusals
import ToolLayer.Policy.Addresses
import ToolLayer.Policy.Executor
import ToolLayer.Python.FormData

/-! What preparing a call can raise: which arguments get past the encoder, the body and the
resolver with nothing worse than a refusal. -/
namespace ToolLayer.Policy
open Python Kit Kit.Result

section Texts

theorem scalar_of_subset {s t : Str} (plain : s.scalar = true) (part : t ⊆ s) : t.scalar = true := by
  rw [Str.scalar,List.all_eq_true] at plain ⊢
  exact fun c member => plain c (part member)

theorem scalar_replace {s old new : Str} (plain : s.scalar = true) (written : new.scalar = true) :
    (Str.replace s old new).scalar = true := by
  rw [Str.scalar,List.all_eq_true] at plain written ⊢
  intro c member
  exact (Str.mem_of_mem_replaceFrom s 0 member).elim (plain c) (written c)

theorem scalar_unescape {token : Str} (plain : token.scalar = true) : (unescape token).scalar = true :=
  scalar_replace (scalar_replace plain (by decide)) (by decide)

theorem scalar_pointerTokens {pointer token : Str} (plain : pointer.scalar = true) (member : token ∈ pointerTokens pointer) :
    token.scalar = true :=
  scalar_of_subset plain (Split.mem_of_mem_cut _ _ token (List.mem_of_mem_drop member))

end Texts

/-- What the encoder writes and UTF-8 takes. -/
def Sayable (v : Value) : Prop := Json.Writable Failure .default v ∧ v.scalar = true

section Values

theorem isToolLayer_argument (message pointer : Str) (details : List ErrorDetail) :
    IsToolLayer (argumentValidationError message pointer details) := ⟨_,rfl⟩

theorem sayable_dict {d : Dict} : Sayable (.dict d) ↔ ∀ m ∈ d, m.1.scalar = true ∧ Sayable m.2 := by
  rw [Sayable,Json.writable_dict,Value.scalar,Value.every_dict]
  constructor
  · intro both m member
    exact ⟨(both.2 m member).1,both.1 m member,(both.2 m member).2⟩
  · intro all
    exact ⟨fun m member => (all m member).2.1,fun m member => ⟨(all m member).1,(all m member).2.2⟩⟩

theorem sayable_empty : Sayable (.dict []) := sayable_dict.mpr (fun _ member => (nomatch member))

theorem sayable_object (place : Place) : Sayable (Held.object place).shown := sayable_empty

theorem sayable_shown {v : Value} (sayable : Sayable v) (keys : List Str) : Sayable (Held.of keys v).shown := by
  cases v with
  | dict members => exact sayable_empty
  | _ => exact sayable

/-- The two ways the code writes JSON write the same values. -/
theorem writable_compact {v : Value} : Json.Writable Failure .compact v ↔ Json.Writable Failure .default v := by
  rw [Json.writable_iff,Json.writable_iff]
  rfl

theorem dumps_compact {v : Value} (sayable : Sayable v) :
    ∃ text, (Json.dumps .compact v : Except PyExc Str) = .ok text ∧ text.scalar = true := by
  have writable := writable_compact.mpr sayable.1
  refine ⟨Json.render .compact v,?_,(Json.scalar_render_of_separators (by decide) (by decide) writable).mpr sayable.2⟩
  rw [Json.dumps,show Json.unwritable Json.Options.compact v = none from writable]

theorem dumps_default {v : Value} (writable : Json.Writable Failure .default v) :
    (Json.dumps .default v : Except PyExc Str) = .ok (Json.render .default v) := by
  rw [Json.dumps,show Json.unwritable Json.Options.default v = none from writable]

/-- A scalar is written as text that can be encoded, and anything else is refused. -/
theorem scalarText_ends {v : Value} (sayable : Sayable v) (pointer : Str) :
    Ends IsToolLayer (fun text => text.scalar = true) (scalarText v pointer) := by
  cases v with
  | bool b => cases b <;> exact Json.scalar_of_words (List.all_eq_true.mp (by decide))
  | int n =>
    have printable : Decimal.printable n = true := by simpa [Json.Writable,Json.unwritable] using sayable.1
    rw [scalarText,Decimal.str,if_pos printable]
    exact Json.scalar_of_words Json.isWordPoint_of_mem_text
  | float x => exact Json.scalar_of_words (Json.isWordPoint_repr x)
  | str s => exact sayable.2
  | _ => exact isToolLayer_error _ _ _ _

theorem headerValue_only {v : Value} (sayable : Sayable v) (pointer : Str) : Only IsToolLayer (headerValue v pointer) :=
  only_bind (scalarText_ends sayable pointer).only (fun _ _ => only_bind (only_refuse (fun _ => isToolLayer_error _ _ _ _))
    (fun _ _ => only_ok _))

theorem quote_ends {s : Str} (plain : s.scalar = true) : ∃ out, (Url.quote s : Except PyExc Str) = .ok out :=
  ⟨_,Url.quote_eq_ok.mpr ⟨plain,rfl⟩⟩

end Values

namespace Objects

/-- Everything the objects hold can be said. -/
structure Spoken (objects : Objects) : Prop where
  given : Sayable (.dict objects.given)
  writes : ∀ w ∈ objects.writes, w.key.scalar = true ∧ Sayable w.held.shown

variable {objects : Objects}

theorem sayable_givenAt {keys : List Str} {d below : Dict} (sayable : Sayable (.dict d)) (found : givenAt keys d = some below) :
    Sayable (.dict below) := by
  induction keys generalizing d with
  | nil => exact Option.some.inj found ▸ sayable
  | cons key rest ih =>
    rw [givenAt] at found
    split at found
    next next_ there => exact ih (sayable_dict.mp sayable _ (Assoc.mem_of_get there)).2 found
    next => cases found

theorem Spoken.members (spoken : objects.Spoken) {place : Place} {m : Str × Held} (member : m ∈ objects.membersOf place) :
    m.1.scalar = true ∧ Sayable m.2.shown := by
  rcases mem_after member with first | ⟨w,written,rfl⟩
  · cases place with
    | made n => cases first
    | argument keys =>
      obtain ⟨entry,inside,rfl⟩ := List.mem_map.mp first
      cases found : givenAt keys objects.given with
      | none =>
        rw [found] at inside
        cases inside
      | some d =>
        rw [found,Option.getD_some] at inside
        obtain ⟨key,value⟩ := sayable_dict.mp (sayable_givenAt spoken.given found) entry inside
        exact ⟨key,sayable_shown value _⟩
  · exact spoken.writes w written

theorem Spoken.lookup (spoken : objects.Spoken) {place : Place} {key : Str} {held : Held}
    (found : objects.lookup place key = some held) : Sayable held.shown := (spoken.members (Assoc.mem_of_get found)).2

theorem Spoken.readTokens (spoken : objects.Spoken) {tokens : List Str} {current held : Held}
    (sayable : Sayable current.shown) (read : readTokens objects tokens current = some held) : Sayable held.shown := by
  induction tokens generalizing current with
  | nil => exact Option.some.inj read ▸ sayable
  | cons token rest ih =>
    cases current with
    | plain v => cases read
    | object place =>
      rw [Policy.readTokens] at read
      split at read
      next next_ found => exact ih (spoken.lookup found) read
      next => cases read

theorem Spoken.taken (spoken : objects.Spoken) {b : ArgumentBinding} {held : Held} (found : taken objects b = some held) :
    Sayable held.shown := by
  unfold Policy.taken at found
  split at found
  next => cases found
  next => cases found
  next given _ read =>
    obtain rfl := Option.some.inj found
    unfold readPointer at read
    split at read
    next =>
      obtain rfl := Option.some.inj read
      exact sayable_empty
    next => exact spoken.readTokens (sayable_object _) read

theorem Spoken.write (spoken : objects.Spoken) {w : Write} (key : w.key.scalar = true) (held : Sayable w.held.shown) :
    (objects.write w).Spoken :=
  ⟨spoken.given,List.forall_mem_cons.mpr ⟨⟨key,held⟩,spoken.writes⟩⟩

theorem Spoken.writeTokens (spoken : objects.Spoken) {place : Place} {front : List Str} {last : Str} {held : Held}
    (plain : ∀ token ∈ front, token.scalar = true) (final : last.scalar = true) (sayable : Sayable held.shown) :
    (objects.writeTokens place front last held).Spoken := by
  induction front generalizing objects place with
  | nil => exact spoken.write final sayable
  | cons token rest ih =>
    rw [List.forall_mem_cons] at plain
    rw [Objects.writeTokens]
    split
    next => exact ih spoken plain.2
    next =>
      have unchanged : objects.alloc.Spoken := ⟨spoken.given,spoken.writes⟩
      exact ih (unchanged.write (w := ⟨place,token,.object (.made objects.made)⟩) plain.1 (sayable_object _)) plain.2

theorem Spoken.tree (spoken : objects.Spoken) {E : Type} {fuel : Nat} {outer : List Place} {place : Place} {d : Dict}
    (done : objects.tree (E := E) fuel outer place = .ok d) : Sayable (.dict d) := by
  induction fuel generalizing outer place d with
  | zero => cases done
  | succ fuel ih =>
    rw [Objects.tree] at done
    split at done
    next => cases done
    next =>
      refine sayable_dict.mpr (fun m member => ?_)
      obtain ⟨entry,inside,made⟩ := exists_left (each_eq_ok.mp done) member
      obtain ⟨key,value⟩ := spoken.members inside
      split at made
      next v shape =>
        cases made
        rw [shape] at value
        exact ⟨key,value⟩
      next inner _ =>
        obtain ⟨below,within,rfl⟩ := map_eq_ok.mp made
        exact ⟨key,ih within⟩

end Objects

/-- What the binding loop keeps of the request under construction. -/
structure Draft.Sound (draft : Draft) : Prop where
  spoken : draft.objects.Spoken
  closed : draft.objects.Closed
  body : Objects.body ∈ draft.objects.places
  query : ∀ pair ∈ draft.query, pair.1.scalar = true ∧ pair.2.scalar = true

section Drawing

theorem scalar_targetName (b : ArgumentBinding) : b.targetName.scalar = true := by
  have accepted := b.accepted.1
  rw [Bool.and_eq_true] at accepted
  exact scalar_of_boundedText accepted.2

theorem writePointer_ends {objects : Objects} (spoken : objects.Spoken) {b : ArgumentBinding} {held : Held}
    (found : taken objects b = some held) (known : ∀ p, held = .object p → p ∈ objects.places) :
    Ends IsToolLayer (fun next => next.Spoken ∧ Objects.Grows objects next) (writePointer objects b.targetName held) := by
  have tokens : ∀ token ∈ (pointerTokens b.targetName).map unescape, token.scalar = true := by
    intro token member
    obtain ⟨raw,inside,rfl⟩ := List.mem_map.mp member
    exact scalar_unescape (scalar_pointerTokens (scalar_targetName b) inside)
  unfold writePointer
  split
  next => exact isToolLayer_error _ _ _ _
  next last front shape =>
    have parts : ∀ token ∈ last::front, token.scalar = true := fun token member =>
      tokens token (List.mem_reverse.mp (shape ▸ member))
    rw [List.forall_mem_cons] at parts
    exact ⟨spoken.writeTokens (fun token member => parts.2 token (List.mem_reverse.mp member)) parts.1 (spoken.taken found),
      Objects.grows_writeTokens known⟩

theorem places_of_readTokens {objects : Objects} (closed : objects.Closed) {tokens : List Str} {current held : Held}
    (known : ∀ p, current = .object p → p ∈ objects.places) (read : readTokens objects tokens current = some held) :
    ∀ p, held = .object p → p ∈ objects.places := by
  induction tokens generalizing current with
  | nil => exact Option.some.inj read ▸ known
  | cons token rest ih =>
    cases current with
    | plain v => cases read
    | object place =>
      rw [readTokens] at read
      split at read
      next next_ found => exact ih (fun p same => closed.lookup (same ▸ found)) read
      next => cases read

theorem argument_mem_places (objects : Objects) : Place.argument [] ∈ objects.places := by
  rw [Objects.places,Objects.placesIn]
  exact List.mem_append_left _ List.mem_cons_self

theorem places_of_taken {objects : Objects} (closed : objects.Closed) {b : ArgumentBinding} {held : Held}
    (found : taken objects b = some held) : ∀ p, held = .object p → p ∈ objects.places := by
  have root : ∀ p, Held.object (.argument []) = .object p → p ∈ objects.places := by
    rintro p ⟨⟩
    exact argument_mem_places objects
  unfold taken at found
  split at found
  next => cases found
  next => cases found
  next given _ read =>
    obtain rfl := Option.some.inj found
    unfold readPointer at read
    split at read
    next => exact Option.some.inj read ▸ root
    next => exact places_of_readTokens closed root read

/-- A binding places its argument or refuses it. -/
theorem placeArgument_ends {draft : Draft} (sound : draft.Sound) (b : ArgumentBinding) :
    Ends IsToolLayer Draft.Sound (placeArgument draft b) := by
  cases found : taken draft.objects b with
  | none =>
    rw [placeArgument_none found]
    exact sound
  | some held =>
    have sayable := sound.spoken.taken found
    rw [placeArgument_some found]
    cases b.target with
    | path =>
      refine (ends_refuse_bind (isToolLayer_error _ _ _ _)).mpr (fun _ => ?_)
      refine (scalarText_ends sayable _).bind (fun text plain => ?_)
      obtain ⟨encoded,quoted⟩ := quote_ends plain
      rw [quoted]
      exact ⟨sound.spoken,sound.closed,sound.body,sound.query⟩
    | query =>
      refine (scalarText_ends sayable _).bind (fun text plain => ⟨sound.spoken,sound.closed,sound.body,?_⟩)
      rw [List.forall_mem_append,List.forall_mem_singleton]
      exact ⟨sound.query,scalar_targetName b,plain⟩
    | header =>
      exact ends_bind.mpr ((ends_of_only (headerValue_only sayable _)).mpr
        (fun text _ => ⟨sound.spoken,sound.closed,sound.body,sound.query⟩))
    | body =>
      refine (writePointer_ends sound.spoken found (places_of_taken sound.closed found)).bind ?_
      rintro next ⟨spoken,grows⟩
      exact ⟨spoken,grows.closed sound.closed,grows.places sound.body,sound.query⟩

theorem sound_start {members : Dict} (sayable : Sayable (.dict members)) (path : Str) :
    Draft.Sound ⟨path,[],[],Objects.start members,false⟩ := by
  refine ⟨⟨sayable,fun _ member => (nomatch member)⟩,fun _ member => (nomatch member),?_,fun _ member => (nomatch member)⟩
  simp [Objects.places,Objects.start,Objects.body]

theorem tree_only {objects : Objects} {fuel : Nat} {outer : List Place} {place : Place} :
    Only (fun e : PyExc => e = .valueError) (objects.tree fuel outer place) := by
  induction fuel generalizing outer place with
  | zero => exact only_error rfl
  | succ fuel ih =>
    rw [Objects.tree]
    split
    next => exact only_error rfl
    next =>
      refine only_each (fun m _ => ?_)
      split
      next => exact only_ok _
      next => exact only_map ih

end Drawing

section Requests

variable [Pydantic]

/-- The draft after the bindings, with no placeholder left. -/
def drawn (tool : ToolDefinition) (members : Dict) : Except PyExc Draft := do
  let draft ← loop placeArgument ⟨tool.operation.pathTemplate,[],[],Objects.start members,false⟩ tool.operation.bindings
  refuse (draft.path.any (fun c => c == CodePoint.openingBrace || c == CodePoint.closingBrace))
    (argumentValidationError "the request path still contains an unfilled placeholder" [])
  return draft

/-- The encoder's way into the body, in an interpreter that nests `nesting` calls. -/
def bodyWithin (nesting : Nat) (draft : Draft) : Except PyExc Unit :=
  if draft.hasBody then do
    let body ← draft.objects.encodable Objects.body
    refuse (decide (nesting < (Value.dict body).depth)) .recursionError
  else .ok ()

/-- `prepare_request` in such an interpreter. -/
def prepareRequestWithin (nesting : Nat) (tool : ToolDefinition) (members : Dict) (baseUrl : Str) :
    Except PyExc PreparedRequest := do
  let draft ← drawn tool members
  bodyWithin nesting draft
  prepareRequest tool members baseUrl

/-- The body has an end, and the encoder reaches it. -/
def BodyFits (nesting : Nat) (draft : Draft) : Prop :=
  draft.hasBody = true → draft.objects.Grounded Objects.body ∧
    ∀ body : Dict, draft.objects.encodable (E := Failure) Objects.body = .ok body → (Value.dict body).depth ≤ nesting

theorem drawn_ends (tool : ToolDefinition) {members : Dict} (sayable : Sayable (.dict members)) :
    Ends IsToolLayer Draft.Sound (drawn tool members) := by
  refine (ends_loop (fun s b _ sound => placeArgument_ends sound b) (sound_start sayable _)).bind (fun draft sound => ?_)
  exact (ends_refuse_bind (isToolLayer_error _ _ _ _)).mpr (fun _ => sound)

omit [Pydantic] in
theorem bodyWithin_ends {nesting : Nat} {draft : Draft} (sound : draft.Sound) {good : Unit → Prop} :
    Ends IsToolLayer good (bodyWithin nesting draft) ↔ BodyFits nesting draft ∧ good () := by
  unfold bodyWithin BodyFits
  cases draft.hasBody with
  | false => simp
  | true =>
    simp only [if_true,true_imp_iff,← sound.closed.encodable_iff (E := Failure) sound.body]
    cases made : draft.objects.encodable (E := Failure) Objects.body with
    | error e =>
      obtain rfl := tree_only e made
      simp [IsToolLayer,bind,Except.bind]
    | ok body =>
      rw [ok_bind]
      by_cases deep : nesting < (Value.dict body).depth
      · simp [refuse,deep,IsToolLayer]
      · simp [refuse,deep,Nat.not_lt.mp deep]

/-- Once the body fits, the request is finished. -/
theorem prepareRequest_of_fits {tool : ToolDefinition} {members : Dict} (baseUrl : Str) {nesting : Nat} {draft : Draft}
    (done : drawn tool members = .ok draft) (sound : draft.Sound) (fits : BodyFits nesting draft) :
    ∃ request, prepareRequest tool members baseUrl = .ok request := by
  unfold drawn at done
  obtain ⟨draft',placed,done⟩ := bind_eq_ok.mp done
  obtain ⟨filled,done⟩ := refuse_bind_eq_ok.mp done
  obtain rfl : draft' = draft := Except.ok.inj done
  have encoded : ∃ out, encodeBody draft' = .ok out := by
    unfold encodeBody
    cases has : draft'.hasBody with
    | false => exact ⟨_,rfl⟩
    | true =>
      obtain ⟨body,made⟩ := (sound.closed.encodable_iff (E := Failure) sound.body).mpr (fits has).1
      obtain ⟨text,written,plain⟩ := dumps_compact (sound.spoken.tree made)
      refine ⟨(some (Utf8.bytes text),some "application/json"),?_⟩
      rw [if_pos rfl,made,ok_bind,written,ok_bind,Utf8.encode,if_pos plain]
      rfl
  have located : ∃ url, requestUrl baseUrl draft'.path draft'.query = .ok url := by
    unfold requestUrl
    dsimp only
    split
    next => exact ⟨_,rfl⟩
    next =>
      obtain ⟨query,written⟩ := Url.urlencode_ends.mpr sound.query
      rw [written]
      exact ⟨_,rfl⟩
  obtain ⟨⟨body,contentType⟩,first⟩ := encoded
  obtain ⟨url,second⟩ := located
  rw [prepareRequest,placed,ok_bind,filled,refuse,if_neg Bool.false_ne_true,ok_bind,first,ok_bind,second]
  exact ⟨_,rfl⟩

theorem prepareRequestWithin_ends {nesting : Nat} {tool : ToolDefinition} {members : Dict} {baseUrl : Str}
    (sayable : Sayable (.dict members)) {good : PreparedRequest → Prop} :
    Ends IsToolLayer good (prepareRequestWithin nesting tool members baseUrl) ↔ ∀ draft, drawn tool members = .ok draft →
      BodyFits nesting draft ∧ ∀ request, prepareRequest tool members baseUrl = .ok request → good request := by
  have drawing := drawn_ends tool sayable
  rw [prepareRequestWithin,ends_bind,ends_of_only drawing.only]
  refine forall₂_congr (fun draft done => ?_)
  have sound := (ends_iff.mp drawing).2 draft done
  rw [ends_bind,bodyWithin_ends sound]
  refine and_congr_right (fun fits => ?_)
  obtain ⟨request,made⟩ := prepareRequest_of_fits baseUrl done sound fits
  rw [made]
  simp

end Requests

section Calls

variable [Unicode] [Pydantic]

/-- An object the encoder cannot get to the end of. -/
def tooDeep (nesting : Nat) : Value → Bool
  | .dict members => decide (nesting < (Value.dict members).depth)
  | _ => false

/-- `validate_arguments` in such an interpreter. -/
def validateArgumentsWithin (nesting : Nat) (engine : SchemaEngine) (tool : ToolDefinition) (arguments : Value) :
    Except PyExc Dict := do
  refuse (tooDeep nesting arguments) .recursionError
  validateArguments engine tool arguments

/-- What `json.loads` can make: it reads no longer integers than `json.dumps` writes. -/
def Loadable (v : Value) : Prop := v.every (Json.leafWritable .default) (fun _ => true) = true

/-- The size check of `validate_arguments`. -/
def FitsLimit (members : Dict) : Prop := (Utf8.bytes (Json.render .default (.dict members))).length ≤ maxArgumentBytes

/-- What an object of arguments needs to get through the checks of its values. -/
structure Checkable (nesting : Nat) (engine : SchemaEngine) (tool : ToolDefinition) (members : Dict)
    (accepted : Prop) : Prop where
  shallow : (Value.dict members).depth ≤ nesting
  plain : (Value.dict members).scalar = true
  answered : FitsLimit members → Only IsToolLayer (engine.iterErrors tool.inputSchema (.dict members)) ∧
    (engine.iterErrors tool.inputSchema (.dict members) = .ok [] → accepted)

omit [Unicode] in
theorem Checkable.congr {nesting : Nat} {engine : SchemaEngine} {tool : ToolDefinition} {members : Dict} {p q : Prop}
    (same : (Value.dict members).scalar = true → (p ↔ q)) :
    Checkable nesting engine tool members p ↔ Checkable nesting engine tool members q := by
  constructor
  · rintro ⟨shallow,plain,answered⟩
    exact ⟨shallow,plain,fun fits => (answered fits).imp_right (fun accepted none_ => (same plain).mp (accepted none_))⟩
  · rintro ⟨shallow,plain,answered⟩
    exact ⟨shallow,plain,fun fits => (answered fits).imp_right (fun accepted none_ => (same plain).mpr (accepted none_))⟩

omit [Pydantic] in
theorem ends_sortErrors {errors : List SchemaError} {members : Dict} {good : Dict → Prop} :
    Ends IsToolLayer good (match sortErrors errors with
      | [] => return members
      | first::rest => throw (argumentValidationError "the proposed arguments do not satisfy the tool's input schema"
        (pointerOf first.path) (((first::rest).take 25).map (errorDetail "argument")))) ↔ (errors = [] → good members) := by
  cases sorted : sortErrors errors with
  | nil => simp [sortErrors_eq_nil.mp sorted]
  | cons first rest =>
    have some_ : errors ≠ [] := fun none_ => by simp [sortErrors_eq_nil.mpr none_] at sorted
    simp only [some_,false_implies,iff_true]
    exact isToolLayer_argument _ _ _

theorem validateArgumentsWithin_ends {nesting : Nat} {engine : SchemaEngine} {tool : ToolDefinition} {arguments : Value}
    (loadable : Loadable arguments) {good : Dict → Prop} :
    Ends IsToolLayer good (validateArgumentsWithin nesting engine tool arguments) ↔
      ∀ members, arguments = .dict members → Checkable nesting engine tool members (good members) := by
  have deep : ¬ IsToolLayer (.recursionError) := by simp [IsToolLayer]
  rw [validateArgumentsWithin,ends_refuse_bind_of_not deep]
  cases arguments with
  | dict members =>
    have writable : Json.Writable Failure .default (.dict members) := Json.writable_iff.mpr loadable
    have unspeakable : ¬ IsToolLayer (.unicodeEncodeError) := by simp [IsToolLayer]
    simp only [Value.dict.injEq,forall_eq']
    rw [tooDeep,decide_eq_false_iff_not,Nat.not_lt,validateArguments,dumps_default writable,ok_bind,Utf8.encode]
    have plain := Json.scalar_render_of_separators (o := .default) (by decide) (by decide) writable
    by_cases scalar : Str.scalar (Json.render .default (.dict members)) = true
    · rw [if_pos scalar,ok_bind,ends_refuse_bind (isToolLayer_argument _ _ _),decide_eq_false_iff_not,Nat.not_lt,ends_bind,
        ends_iff]
      refine (and_congr_right (fun _ => imp_congr_right (fun _ => and_congr_right (fun _ =>
        forall₂_congr (fun _ _ => ends_sortErrors))))).trans ?_
      constructor
      · rintro ⟨shallow,answered⟩
        refine ⟨shallow,plain.mp scalar,fun fits => ?_⟩
        obtain ⟨only,verdicts⟩ := answered fits
        exact ⟨only,fun none_ => verdicts [] none_ rfl⟩
      · rintro ⟨shallow,_,answered⟩
        refine ⟨shallow,fun fits => ?_⟩
        obtain ⟨only,accepted⟩ := answered fits
        exact ⟨only,fun errors given none_ => accepted (none_ ▸ given)⟩
    · rw [if_neg scalar]
      constructor
      · exact fun both => absurd both.2 unspeakable
      · exact fun checkable => absurd (plain.mpr checkable.plain) scalar
  | _ => simp [validateArguments,argumentValidationError,isToolLayer_error,tooDeep]

variable [AddressRegistry]

omit [Unicode] [Pydantic] [AddressRegistry] in
theorem isToolLayer_of_policyDenied {e : PyExc} (denied : IsPolicyDenied e) : IsToolLayer e := by
  obtain ⟨code,message,rfl⟩ := denied
  exact isToolLayer_error _ _ _ _

omit [Pydantic] in
/-- The destination is refused properly unless the resolver raises something else. -/
theorem check_only {policy : DestinationPolicy} {url : Str} {resolver : DnsResolver} :
    Only IsToolLayer (policy.check url resolver) ↔ ∀ authority, policy.originStep url = .ok authority →
      Only IsToolLayer (DestinationPolicy.resolvedAddresses authority.host authority.port resolver) := by
  have step := only_mono (fun _ => isToolLayer_of_policyDenied) (policy.originStep_only url)
  rw [DestinationPolicy.check_eq]
  constructor
  · intro whole authority done e raised
    refine whole e ?_
    rw [done,ok_bind,raised]
    rfl
  · intro resolves
    refine only_bind step (fun authority done => only_bind (resolves authority done) (fun addresses _ => ?_))
    exact only_mono (fun _ => isToolLayer_of_policyDenied) (policy.settle_only authority addresses)

/-- `prepare` in an interpreter that nests `nesting` calls. -/
def ToolExecutor.prepareWithin (nesting : Nat) (executor : ToolExecutor) (engine : SchemaEngine) (tool : ToolDefinition)
    (arguments : Value) (baseUrl : Str) : Except PyExc PreparedRequest := do
  executor.policy.checkMethod tool.operation.method.upper
  let validated ← validateArgumentsWithin nesting engine tool arguments
  let request ← prepareRequestWithin nesting tool validated baseUrl
  let _ ← executor.policy.check request.url executor.resolver
  return request

/-- What is prepared there is what `prepare` prepares. -/
theorem ToolExecutor.prepare_of_prepareWithin {nesting : Nat} {executor : ToolExecutor} {engine : SchemaEngine}
    {tool : ToolDefinition} {arguments : Value} {baseUrl : Str} {request : PreparedRequest}
    (prepared : executor.prepareWithin nesting engine tool arguments baseUrl = .ok request) :
    executor.prepare engine tool arguments baseUrl = .ok request := by
  obtain ⟨_,permitted,prepared⟩ := bind_eq_ok.mp prepared
  obtain ⟨validated,accepted,prepared⟩ := bind_eq_ok.mp prepared
  obtain ⟨request',built,prepared⟩ := bind_eq_ok.mp prepared
  obtain ⟨destination,checked,prepared⟩ := bind_eq_ok.mp prepared
  cases prepared
  obtain ⟨_,accepted⟩ := refuse_bind_eq_ok.mp accepted
  obtain ⟨_,_,built⟩ := bind_eq_ok.mp built
  obtain ⟨_,_,built⟩ := bind_eq_ok.mp built
  exact prepare_eq_ok.mpr ⟨permitted,⟨validated,accepted,built⟩,destination,checked⟩

/-- The body fits, and the resolver, if it is asked, has an answer or a refusal. -/
def Sendable (nesting : Nat) (executor : ToolExecutor) (tool : ToolDefinition) (members : Dict) (baseUrl : Str) : Prop :=
  ∀ draft, drawn tool members = .ok draft → BodyFits nesting draft ∧
    ∀ request, prepareRequest tool members baseUrl = .ok request →
      ∀ authority, executor.policy.originStep request.url = .ok authority →
        Only IsToolLayer (DestinationPolicy.resolvedAddresses authority.host authority.port executor.resolver)

/-- Preparing a call raises a `ToolLayerError` or nothing exactly when the arguments can be
nested, encoded and checked and the body and the resolver make no trouble. -/
theorem prepare_classified_iff {nesting : Nat} {executor : ToolExecutor} {engine : SchemaEngine} {tool : ToolDefinition}
    {arguments : Value} {baseUrl : Str} (loadable : Loadable arguments) :
    Only IsToolLayer (executor.prepareWithin nesting engine tool arguments baseUrl) ↔
      (executor.policy.allowedMethods.contains tool.operation.method.upper = true →
        ∀ members, arguments = .dict members →
          Checkable nesting engine tool members (Sendable nesting executor tool members baseUrl)) := by
  have whole : Only IsToolLayer (executor.prepareWithin nesting engine tool arguments baseUrl) ↔
      Ends IsToolLayer (fun _ => True) (executor.prepareWithin nesting engine tool arguments baseUrl) := by simp [ends_iff]
  rw [whole,ToolExecutor.prepareWithin,DestinationPolicy.checkMethod,
    ends_refuse_bind (show IsToolLayer (policyDenied _ _) from isToolLayer_error _ _ _ _),Bool.not_eq_false',ends_bind,
    validateArgumentsWithin_ends loadable]
  refine imp_congr_right (fun _ => forall₂_congr (fun members same => Checkable.congr (fun plain => ?_)))
  have sayable : Sayable (.dict members) := ⟨Json.writable_iff.mpr (same ▸ loadable),plain⟩
  rw [ends_bind,prepareRequestWithin_ends sayable]
  refine forall₂_congr (fun draft _ => and_congr_right (fun _ => forall₂_congr (fun request _ => ?_)))
  rw [ends_bind,ends_iff,check_only]
  exact and_iff_left (fun _ _ => trivial)

end Calls

section Lone

local instance loneUnicode : Unicode := Unicode.asciiOnly
local instance lonePydantic : Pydantic := Pydantic.exact
local instance loneAddresses : AddressRegistry := globalAddresses

def noteSchema : Dict :=
  [("$schema",.str ToolDefinition.dialect),("type",.str "object"),
    ("properties",.dict [("note",.dict [("type",.str "object")]),("q",.dict [("type",.str "string")])]),
    ("required",.list []),("additionalProperties",.bool false)]

theorem noteQuery_accepted : ArgumentBinding.Accepts "/q" .query "q" := by decide +kernel

/-- A tool that puts an object into an object it has put into the body. -/
def noteTool : ToolDefinition where
  toolName := "put_note"
  displayName := "Put note"
  description := "Stores a note."
  inputSchema := noteSchema
  operation := ⟨.post,"/notes",[⟨"/q",.query,"q",noteQuery_accepted⟩,⟨"/note",.body,"/note",by decide +kernel⟩,
    ⟨"/note",.body,"/note/copy",by decide +kernel⟩],true,by decide +kernel⟩
  policy := ⟨.write,true,.unrestricted⟩
  provenance := ⟨none,"/notes",.post,[],false,.generated,by decide +kernel⟩
  accepted := by decide +kernel

/-- The arguments of the text `{"q": "\ud800"}`. -/
def loneArguments : Value := .dict [("q",.str [Fin.ofNat _ 0xD800])]

theorem lone_raises : raised? (pingExecutor.prepareWithin 1000 SchemaSubset.engine noteTool loneArguments
    "http://desk.test") = some .unicodeEncodeError := by
  decide +kernel

theorem prepare_classified_iff_lone :
    Only IsToolLayer (pingExecutor.prepareWithin 1000 SchemaSubset.engine noteTool loneArguments "http://desk.test") ↔
      (pingExecutor.policy.allowedMethods.contains noteTool.operation.method.upper = true →
        ∀ members, loneArguments = .dict members → Checkable 1000 SchemaSubset.engine noteTool members
          (Sendable 1000 pingExecutor noteTool members "http://desk.test")) :=
  prepare_classified_iff (show Value.every _ _ _ = true by decide +kernel)

/-- A lone surrogate escapes as the exception of the encoder. -/
theorem lone_surrogate_escapes :
    ¬ Only IsToolLayer (pingExecutor.prepareWithin 1000 SchemaSubset.engine noteTool loneArguments "http://desk.test") := by
  intro only
  obtain ⟨t,same⟩ := only _ (raised?_eq_some.mp lone_raises)
  cases same

/-- So does a note that comes to lie inside itself. -/
example : raised? (pingExecutor.prepareWithin 1000 SchemaSubset.engine noteTool (.dict [("note",.dict [])])
    "http://desk.test") = some .valueError := by
  decide +kernel

end Lone

end ToolLayer.Policy
