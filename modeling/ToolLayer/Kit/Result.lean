import Mathlib.Data.List.Forall2

/-! Code that may raise, as `Except`: inversion of the steps of a successful run
and the guards and loops such code is made of. -/
namespace Kit.Result

variable {E A B S : Type*}

/-- `if refused: raise e`. -/
def refuse (refused : Bool) (e : E) : Except E Unit := if refused then .error e else .ok ()

@[simp] theorem refuse_eq_ok {refused : Bool} {e : E} {u : Unit} :
    refuse refused e = .ok u ↔ refused = false := by
  cases refused <;> simp [refuse]

@[simp] theorem refuse_true (e : E) : refuse true e = .error e := rfl

@[simp] theorem refuse_false (e : E) : refuse false e = .ok () := rfl

theorem refuse_eq_error {refused : Bool} {e f : E} :
    refuse refused e = .error f ↔ refused = true ∧ e = f := by
  cases refused <;> simp [refuse]

@[simp] theorem ok_bind {ε α β : Type _} (a : α) (f : α → Except ε β) : (Except.ok a >>= f) = f a := rfl

@[simp] theorem error_bind {ε α β : Type _} (e : ε) (f : α → Except ε β) :
    ((Except.error e : Except ε α) >>= f) = .error e := rfl

@[simp] theorem pure_eq_ok {ε α : Type _} (a : α) : (pure a : Except ε α) = .ok a := rfl

/-- A run of two steps succeeds exactly when both do. -/
theorem bind_eq_ok {ε α β : Type _} {x : Except ε α} {f : α → Except ε β} {b : β} :
    (x >>= f) = .ok b ↔ ∃ a, x = .ok a ∧ f a = .ok b := by
  cases x with
  | error e => simp
  | ok a => simp

theorem bind_eq_error {ε α β : Type _} {x : Except ε α} {f : α → Except ε β} {e : ε} :
    (x >>= f) = .error e ↔ x = .error e ∨ ∃ a, x = .ok a ∧ f a = .error e := by
  cases x with
  | error d => simp
  | ok a => simp

theorem map_eq_ok {ε α β : Type _} {x : Except ε α} {f : α → β} {b : β} :
    x.map f = .ok b ↔ ∃ a, x = .ok a ∧ f a = b := by
  cases x <;> simp [Except.map]

theorem refuse_bind_eq_ok {ε β : Type _} {refused : Bool} {e : ε} {f : Unit → Except ε β} {b : β} :
    (refuse refused e >>= f) = .ok b ↔ refused = false ∧ f () = .ok b := by
  cases refused <;> simp

/-- A loop over a list that carries a state and may raise. -/
def loop (step : S → A → Except E S) : S → List A → Except E S
  | s, [] => .ok s
  | s, a::rest =>
    match step s a with
    | .ok t => loop step t rest
    | .error e => .error e

@[simp] theorem loop_nil (step : S → A → Except E S) (s : S) : loop step s [] = .ok s := rfl

theorem loop_cons_eq_ok {step : S → A → Except E S} {s u : S} {a : A} {rest : List A} :
    loop step s (a::rest) = .ok u ↔ ∃ t, step s a = .ok t ∧ loop step t rest = .ok u := by
  rw [loop]
  cases step s a <;> simp

theorem loop_append_eq_ok {step : S → A → Except E S} {s u : S} {front back : List A} :
    loop step s (front ++ back) = .ok u ↔ ∃ t, loop step s front = .ok t ∧ loop step t back = .ok u := by
  induction front generalizing s with
  | nil => simp
  | cons a front ih =>
    simp only [List.cons_append,loop_cons_eq_ok,ih]
    constructor
    · rintro ⟨t,first,v,middle,last⟩
      exact ⟨v,⟨t,first,middle⟩,last⟩
    · rintro ⟨v,⟨t,first,middle⟩,last⟩
      exact ⟨t,first,v,middle,last⟩

/-- What every step keeps, a finished loop keeps. -/
theorem loop_keeps {step : S → A → Except E S} (kept : S → Prop) {s u : S} {items : List A}
    (each : ∀ s a t, a ∈ items → kept s → step s a = .ok t → kept t)
    (start : kept s) (done : loop step s items = .ok u) : kept u := by
  induction items generalizing s with
  | nil =>
    cases done
    exact start
  | cons a rest ih =>
    obtain ⟨t,first,tail⟩ := loop_cons_eq_ok.mp done
    exact ih (fun s b t member => each s b t (by simp [member])) (each s a t (by simp) start first) tail

/-- Every round of a finished loop was passed. -/
theorem step_of_loop {step : S → A → Except E S} {s u : S} {items : List A} {a : A}
    (done : loop step s items = .ok u) (member : a ∈ items) : ∃ before after, step before a = .ok after := by
  induction items generalizing s with
  | nil => cases member
  | cons b rest ih =>
    obtain ⟨t,first,tail⟩ := loop_cons_eq_ok.mp done
    rcases List.mem_cons.mp member with rfl | later
    · exact ⟨s,t,first⟩
    · exact ih tail later

/-- A loop that collects names and refuses the second of two equal ones. -/
theorem loop_distinct {N : Type _} {step : List N → A → Except E (List N)} {name : A → N} {passes : A → Prop}
    {items : List A} (stepped : ∀ a ∈ items, ∀ seen next, step seen a = .ok next ↔
      name a ∉ seen ∧ passes a ∧ next = seen ++ [name a]) (seen : List N) :
    (∃ next, loop step seen items = .ok next) ↔
      (items.map name).Nodup ∧ (∀ a ∈ items, name a ∉ seen) ∧ ∀ a ∈ items, passes a := by
  induction items generalizing seen with
  | nil => simp
  | cons a rest ih =>
    rw [List.forall_mem_cons] at stepped
    have tail := ih stepped.2 (seen ++ [name a])
    simp only [loop_cons_eq_ok,stepped.1,List.map_cons,List.nodup_cons,List.forall_mem_cons]
    constructor
    · rintro ⟨next,_,⟨fresh,passed,rfl⟩,done⟩
      obtain ⟨apart,others,each⟩ := tail.mp ⟨next,done⟩
      refine ⟨⟨?_,apart⟩,⟨fresh,?_⟩,passed,each⟩
      · intro member
        obtain ⟨b,inside,same⟩ := List.mem_map.mp member
        exact others b inside (by simp [same])
      · intro b inside again
        exact others b inside (List.mem_append_left _ again)
    · rintro ⟨⟨first,apart⟩,⟨fresh,others⟩,passed,each⟩
      have absent : ∀ b ∈ rest, name b ∉ seen ++ [name a] := by
        intro b inside again
        rcases List.mem_append.mp again with earlier | same
        · exact others b inside earlier
        · exact first (List.mem_map.mpr ⟨b,inside,List.mem_singleton.mp same⟩)
      obtain ⟨next,done⟩ := tail.mpr ⟨apart,absent,each⟩
      exact ⟨next,_,⟨fresh,passed,rfl⟩,done⟩

/-- A loop that only checks. -/
theorem loop_unit_eq_ok {step : Unit → A → Except E Unit} {items : List A} :
    loop step () items = .ok () ↔ ∀ a ∈ items, step () a = .ok () := by
  induction items with
  | nil => simp
  | cons a rest ih =>
    rw [loop_cons_eq_ok,List.forall_mem_cons,← ih]
    constructor
    · rintro ⟨_,first,tail⟩
      exact ⟨first,tail⟩
    · rintro ⟨first,tail⟩
      exact ⟨(),first,tail⟩

/-- One call for each item, in order, stopping at the first that raises. -/
def each (f : A → Except E B) : List A → Except E (List B)
  | [] => .ok []
  | a::rest =>
    match f a with
    | .error e => .error e
    | .ok b =>
      match each f rest with
      | .error e => .error e
      | .ok bs => .ok (b::bs)

@[simp] theorem each_nil (f : A → Except E B) : each f [] = .ok [] := rfl

theorem each_cons_eq_ok {f : A → Except E B} {a : A} {rest : List A} {out : List B} :
    each f (a::rest) = .ok out ↔ ∃ b bs, f a = .ok b ∧ each f rest = .ok bs ∧ out = b::bs := by
  rw [each]
  cases f a with
  | error e => simp
  | ok b =>
    cases each f rest with
    | error e => simp
    | ok bs => simp [eq_comm]

/-- Every item's call succeeded, and the results stand in the items' order. -/
theorem each_eq_ok {f : A → Except E B} {items : List A} {out : List B} :
    each f items = .ok out ↔ List.Forall₂ (fun a b => f a = .ok b) items out := by
  induction items generalizing out with
  | nil => simp [eq_comm]
  | cons a rest ih =>
    rw [each_cons_eq_ok,List.forall₂_cons_left_iff]
    constructor
    · rintro ⟨b,bs,first,tail,rfl⟩
      exact ⟨b,bs,first,ih.mp tail,rfl⟩
    · rintro ⟨b,bs,first,tail,rfl⟩
      exact ⟨b,bs,first,ih.mpr tail,rfl⟩

theorem each_of_forall {f : A → Except E B} {items : List A} (total : ∀ a ∈ items, ∃ b, f a = .ok b) :
    ∃ out, each f items = .ok out := by
  induction items with
  | nil => exact ⟨[],rfl⟩
  | cons a rest ih =>
    rw [List.forall_mem_cons] at total
    obtain ⟨b,first⟩ := total.1
    obtain ⟨bs,tail⟩ := ih total.2
    exact ⟨b::bs,each_cons_eq_ok.mpr ⟨b,bs,first,tail,rfl⟩⟩

/-- Whatever the run raises is of the family. -/
def Only {ε α : Type _} (family : ε → Prop) (x : Except ε α) : Prop := ∀ e, x = .error e → family e

section Only

variable {ε α β : Type _} {family : ε → Prop}

theorem only_ok (a : α) : Only family (.ok a : Except ε α) := by
  intro e raised
  cases raised

theorem only_of_eq_ok {x : Except ε α} {a : α} (done : x = .ok a) : Only family x := done ▸ only_ok a

theorem only_error {e : ε} (inside : family e) : Only family (.error e : Except ε α) := by
  intro f raised
  cases raised
  exact inside

theorem only_refuse {refused : Bool} {e : ε} (inside : refused = true → family e) : Only family (refuse refused e) := by
  intro f raised
  obtain ⟨met,rfl⟩ := refuse_eq_error.mp raised
  exact inside met

/-- A step, and then whatever follows its success. -/
theorem only_bind {x : Except ε α} {f : α → Except ε β} (first : Only family x)
    (next : ∀ a, x = .ok a → Only family (f a)) : Only family (x >>= f) := by
  intro e raised
  rcases bind_eq_error.mp raised with early | ⟨a,done,later⟩
  · exact first e early
  · exact next a done e later

theorem only_map {x : Except ε α} {f : α → β} (first : Only family x) : Only family (x.map f) := by
  intro e raised
  cases x with
  | error d =>
    cases raised
    exact first _ rfl
  | ok a => cases raised

theorem only_mono {family' : ε → Prop} (wider : ∀ e, family e → family' e) {x : Except ε α} (only : Only family x) :
    Only family' x := fun e raised => wider e (only e raised)

theorem only_loop {step : S → A → Except ε S} {items : List A} {s : S}
    (each : ∀ s a, a ∈ items → Only family (step s a)) : Only family (loop step s items) := by
  induction items generalizing s with
  | nil => exact only_ok s
  | cons a rest ih =>
    intro e raised
    rw [loop] at raised
    split at raised
    next t done => exact ih (fun s b member => each s b (List.mem_cons_of_mem _ member)) e raised
    next d failed =>
      cases raised
      exact each s a List.mem_cons_self _ failed

theorem only_each {f : A → Except ε B} {items : List A} (each_ : ∀ a ∈ items, Only family (f a)) :
    Only family (each f items) := by
  induction items with
  | nil => exact only_ok []
  | cons a rest ih =>
    intro e raised
    rw [each] at raised
    split at raised
    next d failed =>
      cases raised
      exact each_ a List.mem_cons_self _ failed
    next b _ =>
      split at raised
      next d failed =>
        cases raised
        exact ih (fun b member => each_ b (List.mem_cons_of_mem _ member)) _ failed
      next => cases raised

end Only

/-- The run ends well, or raises an exception of the family. -/
def Ends {ε α : Type _} (family : ε → Prop) (good : α → Prop) : Except ε α → Prop
  | .ok a => good a
  | .error e => family e

section Ends

variable {ε α β : Type _} {family : ε → Prop} {good : α → Prop}

@[simp] theorem ends_ok {a : α} : Ends family good (.ok a) ↔ good a := Iff.rfl

@[simp] theorem ends_error {e : ε} : Ends family good (.error e) ↔ family e := Iff.rfl

theorem ends_bind {good : β → Prop} {x : Except ε α} {f : α → Except ε β} :
    Ends family good (x >>= f) ↔ Ends family (fun a => Ends family good (f a)) x := by
  cases x <;> exact Iff.rfl

theorem ends_refuse_bind {refused : Bool} {e : ε} (inside : family e) {f : Unit → Except ε α} :
    Ends family good (refuse refused e >>= f) ↔ (refused = false → Ends family good (f ())) := by
  cases refused with
  | false => simp
  | true => simp [inside]

theorem ends_refuse {refused : Bool} {e : ε} (inside : family e) {good : Unit → Prop} :
    Ends family good (refuse refused e) ↔ (refused = false → good ()) := by
  cases refused with
  | false => simp
  | true => simp [inside]

theorem ends_iff {x : Except ε α} : Ends family good x ↔ Only family x ∧ ∀ a, x = .ok a → good a := by
  cases x with
  | error e => simp [Only]
  | ok a => simp [Only]

/-- A run whose exceptions are all of the family has only its results to answer for. -/
theorem ends_of_only {x : Except ε α} (only : Only family x) : Ends family good x ↔ ∀ a, x = .ok a → good a := by
  rw [ends_iff]
  exact ⟨And.right,And.intro only⟩

theorem ends_congr {other : α → Prop} {x : Except ε α} (same : ∀ a, x = .ok a → (good a ↔ other a)) :
    Ends family good x ↔ Ends family other x := by
  cases x with
  | error e => exact Iff.rfl
  | ok a => exact same a rfl

theorem Ends.mono {other : α → Prop} {x : Except ε α} (ends : Ends family good x) (wider : ∀ a, good a → other a) :
    Ends family other x := by
  cases x with
  | error e => exact ends
  | ok a => exact wider a ends

theorem Ends.only {x : Except ε α} (ends : Ends family good x) : Only family x := (ends_iff.mp ends).1

/-- One run after another, from what the first leaves. -/
theorem Ends.bind {good' : β → Prop} {x : Except ε α} {f : α → Except ε β} (first : Ends family good x)
    (next : ∀ a, good a → Ends family good' (f a)) : Ends family good' (x >>= f) := ends_bind.mpr (first.mono next)

theorem Ends.map {good' : β → Prop} {x : Except ε α} {f : α → β} (ends : Ends family good x)
    (mapped : ∀ a, good a → good' (f a)) : Ends family good' (x.map f) := by
  cases x with
  | error e => exact ends
  | ok a => exact mapped a ends

/-- An exception that is not of the family is the end of it. -/
theorem ends_refuse_bind_of_not {refused : Bool} {e : ε} (outside : ¬ family e) {f : Unit → Except ε α} :
    Ends family good (refuse refused e >>= f) ↔ refused = false ∧ Ends family good (f ()) := by
  cases refused with
  | false => simp
  | true => simp [outside]

/-- What every step keeps unless it raises one of the family, the loop keeps. -/
theorem ends_loop {kept : S → Prop} {step : S → A → Except ε S} {items : List A}
    (each : ∀ s a, a ∈ items → kept s → Ends family kept (step s a)) {s : S} (start : kept s) :
    Ends family kept (loop step s items) := by
  induction items generalizing s with
  | nil => exact start
  | cons a rest ih =>
    have first := each s a List.mem_cons_self start
    rw [loop]
    cases done : step s a with
    | error e =>
      rw [done] at first
      exact first
    | ok t =>
      rw [done] at first
      exact ih (fun s b member => each s b (List.mem_cons_of_mem _ member)) first

end Ends

/-- What a run raised, if anything. -/
def raised? {ε α : Type _} : Except ε α → Option ε
  | .error e => some e
  | .ok _ => none

theorem raised?_eq_some {ε α : Type _} {x : Except ε α} {e : ε} : raised? x = some e ↔ x = .error e := by
  cases x <;> simp [raised?]

/-- The run succeeds with a result that passes the check. -/
def okWith {ε α : Type _} (check : α → Bool) : Except ε α → Bool
  | .ok a => check a
  | .error _ => false

theorem exists_of_okWith {ε α : Type _} {check : α → Bool} {x : Except ε α} (passed : okWith check x = true) :
    ∃ a, x = .ok a ∧ check a = true := by
  cases x with
  | error e => cases passed
  | ok a => exact ⟨a,rfl,passed⟩

theorem exists_forall₂ {R : A → B → Prop} {as : List A} :
    (∃ bs, List.Forall₂ R as bs) ↔ ∀ a ∈ as, ∃ b, R a b := by
  induction as with
  | nil => simp
  | cons a rest ih =>
    rw [List.forall_mem_cons,← ih]
    constructor
    · rintro ⟨_,_ | ⟨first,tail⟩⟩
      exact ⟨⟨_,first⟩,_,tail⟩
    · rintro ⟨⟨b,first⟩,bs,tail⟩
      exact ⟨b::bs,.cons first tail⟩

theorem exists_left {R : A → B → Prop} {as : List A} {bs : List B} (related : List.Forall₂ R as bs) {b : B}
    (member : b ∈ bs) : ∃ a ∈ as, R a b := by
  induction related with
  | nil => cases member
  | cons first _ ih =>
    rcases List.mem_cons.mp member with rfl | tail
    · exact ⟨_,by simp,first⟩
    · obtain ⟨a,inside,found⟩ := ih tail
      exact ⟨a,by simp [inside],found⟩

theorem exists_right {R : A → B → Prop} {as : List A} {bs : List B} (related : List.Forall₂ R as bs) {a : A}
    (member : a ∈ as) : ∃ b ∈ bs, R a b :=
  exists_left (R := fun b a => R a b) related.flip member

/-- `mapM` of a partial function, one result for each item. -/
theorem mapM_eq_some {f : A → Option B} {items : List A} {out : List B} :
    items.mapM f = some out ↔ List.Forall₂ (fun a b => f a = some b) items out := by
  induction items generalizing out with
  | nil => simp [eq_comm]
  | cons a rest ih =>
    simp only [List.mapM_cons,Option.bind_eq_bind,Option.bind_eq_some_iff,Option.pure_def,Option.some.injEq]
    constructor
    · rintro ⟨b,first,bs,tail,rfl⟩
      exact .cons first (ih.mp tail)
    · rintro (_ | ⟨first,tail⟩)
      exact ⟨_,first,_,ih.mpr tail,rfl⟩

end Kit.Result
