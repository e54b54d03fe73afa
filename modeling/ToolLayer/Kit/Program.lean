import Mathlib.Logic.Basic

/-! Programs over a state others also change, which may raise: their sequencing, and
rules for what holds of the state and the result when a program ends. -/
namespace Kit

/-- A run from a state ends in a result or an exception, and in a state. -/
def Program (S E A : Type) := S → Except E A × S

namespace Program

variable {S E A B : Type}

def ret (a : A) : Program S E A := fun s => (.ok a,s)

def raise (e : E) : Program S E A := fun s => (.error e,s)

def andThen (p : Program S E A) (f : A → Program S E B) : Program S E B := fun s =>
  match p s with
  | (.ok a,t) => f a t
  | (.error e,t) => (.error e,t)

instance : Monad (Program S E) where
  pure := ret
  bind := andThen

/-- Code that may raise and does not touch the state. -/
def lift (x : Except E A) : Program S E A := fun s => (x,s)

/-- A change of the state alone. -/
def update (f : S → S) : Program S E Unit := fun s => (.ok (),f s)

/-- From every state with `pre`, a run that returns ends in `post` and one that raises in `fail`. -/
def Triple (pre : S → Prop) (p : Program S E A) (post : A → S → Prop) (fail : S → Prop) : Prop :=
  ∀ s, pre s → match p s with
    | (.ok a,t) => post a t
    | (.error _,t) => fail t

variable {pre pre' fail fail' : S → Prop} {post post' : A → S → Prop} {p : Program S E A}

theorem triple_pure {a : A} (holds : ∀ s, pre s → post a s) : Triple pre (pure a : Program S E A) post fail :=
  fun s start => holds s start

theorem triple_raise {e : E} (holds : ∀ s, pre s → fail s) : Triple pre (raise e : Program S E A) post fail :=
  fun s start => holds s start

theorem triple_lift {x : Except E A} (returns : ∀ a s, x = .ok a → pre s → post a s)
    (raises : ∀ e s, x = .error e → pre s → fail s) : Triple pre (lift x : Program S E A) post fail := by
  intro s start
  cases x with
  | ok a => exact returns a s rfl start
  | error e => exact raises e s rfl start

theorem triple_update {f : S → S} {after : Unit → S → Prop} (holds : ∀ s, pre s → after () (f s)) :
    Triple pre (update f : Program S E Unit) after fail :=
  fun s start => holds s start

theorem triple_bind {f : A → Program S E B} {after : B → S → Prop} (first : Triple pre p post fail)
    (next : ∀ a, Triple (post a) (f a) after fail) : Triple pre (p >>= f) after fail := by
  intro s start
  have done := first s start
  change match andThen p f s with
    | (.ok a,t) => after a t
    | (.error _,t) => fail t
  unfold andThen
  cases run : p s with
  | mk result t =>
    rw [run] at done
    cases result with
    | ok a => exact next a t done
    | error e => exact done

theorem triple_mono (stronger : ∀ s, pre' s → pre s) (weaker : ∀ a s, post a s → post' a s)
    (failing : ∀ s, fail s → fail' s) (holds : Triple pre p post fail) : Triple pre' p post' fail' := by
  intro s start
  have done := holds s (stronger s start)
  cases run : p s with
  | mk result t =>
    rw [run] at done
    cases result with
    | ok a => exact weaker a t done
    | error e => exact failing t done

/-- After a step that only computes, its result is known and the state is as before. -/
theorem triple_lift_bind {x : Except E A} {f : A → Program S E B} {after : B → S → Prop}
    (raises : ∀ s, pre s → fail s) (next : ∀ a, x = .ok a → Triple pre (f a) after fail) :
    Triple pre (lift x >>= f) after fail := by
  cases x with
  | ok a => exact fun s start => next a rfl s start
  | error e => exact fun s start => raises s start

theorem triple_update_bind {g : S → S} {f : Unit → Program S E B} {after : B → S → Prop} (mid : S → Prop)
    (moves : ∀ s, pre s → mid (g s)) (next : Triple mid (f ()) after fail) :
    Triple pre (update g >>= f) after fail :=
  fun s start => next (g s) (moves s start)

/-- What a triple says of one run. -/
theorem Triple.run {s : S} (holds : Triple pre p post fail) (start : pre s) :
    (∀ a, (p s).1 = .ok a → post a (p s).2) ∧ ∀ e, (p s).1 = .error e → fail (p s).2 := by
  have done := holds s start
  cases ended : p s with
  | mk result t =>
    rw [ended] at done
    cases result with
    | ok a =>
      refine ⟨fun b same => ?_,fun e same => nomatch same⟩
      cases same
      exact done
    | error e => exact ⟨fun b same => (nomatch same),fun _ _ => done⟩

end Program

end Kit
