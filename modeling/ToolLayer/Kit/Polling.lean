import Mathlib.Data.List.Nodup

/-! A client that polls the last entry of a growing log under a tag of what it holds. The log
grows, and answers are lost, between any two moments of a poll. -/
namespace Kit.Polling

variable {V T : Type*} [DecidableEq T]

inductive Reply (V : Type*) where
  | unchanged
  | changed (v : V)
  | failed

/-- The answer to a request that carries the tag `asked`, while `current` is served. -/
def reply (tag : V → T) (current : Option V) (asked : Option T) : Reply V :=
  match current with
  | none => .failed
  | some v => if asked = some (tag v) then .unchanged else .changed v

/-- How far the poll has got; an answer remembers how long the log was when it was given. -/
inductive Phase (V T : Type*) where
  | idle
  | asked (tag : Option T)
  | answered (reply : Reply V) (length : Nat)

structure State (V T : Type*) where
  log : List V
  held : Option V
  phase : Phase V T

inductive Move (V : Type*) where
  | commit (v : V)
  | ask
  | answer
  | lose
  | finish

variable (tag : V → T) (accepts : V → Bool)

/-- What the client holds once it has an answer. -/
def settle (held : Option V) : Reply V → Option V
  | .changed v => if accepts v then some v else held
  | _ => held

def step (s : State V T) : Move V → State V T
  | .commit v => { s with log := s.log ++ [v] }
  | .ask =>
    match s.phase with
    | .idle => { s with phase := .asked (s.held.map tag) }
    | _ => s
  | .answer =>
    match s.phase with
    | .asked asked => { s with phase := .answered (reply tag s.log.getLast? asked) s.log.length }
    | _ => s
  | .lose =>
    match s.phase with
    | .idle => s
    | _ => { s with phase := .answered .failed s.log.length }
  | .finish =>
    match s.phase with
    | .answered given _ => { s with held := settle accepts s.held given, phase := .idle }
    | _ => s

def run (s : State V T) (moves : List (Move V)) : State V T := moves.foldl (step tag accepts) s

/-- What is held stands in the log before position `n`, if anything is. -/
def Before (log : List V) (held : Option V) (n : Nat) : Prop := ∀ v ∈ held, ∃ k < n, log[k]? = some v

/-- What an answer says of the log as it was when `n` entries long. -/
def Truthful (log : List V) (held : Option V) (n : Nat) : Reply V → Prop
  | .unchanged => ∃ v ∈ held, (log.take n).getLast? = some v
  | .changed v => (log.take n).getLast? = some v
  | .failed => True

/-- What the phase of the poll promises. -/
def Promises (log : List V) (held : Option V) : Phase V T → Prop
  | .idle => True
  | .asked asked => asked = held.map tag
  | .answered given n => n ≤ log.length ∧ Before log held n ∧ Truthful log held n given

structure Sound (s : State V T) : Prop where
  held : Before s.log s.held s.log.length
  phase : Promises tag s.log s.held s.phase

/-- The log has grown, and the client holds no older entry. -/
structure Advances (before after : State V T) : Prop where
  log : before.log <+: after.log
  held : ∀ v ∈ before.held, ∀ k : Nat, before.log[k]? = some v → ∃ w ∈ after.held, ∃ l : Nat, k ≤ l ∧ after.log[l]? = some w

variable {tag accepts} {log : List V} {held : Option V} {n : Nat}

omit [DecidableEq T] in
theorem Before.grow (before : Before log held n) (v : V) (within : n ≤ log.length) : Before (log ++ [v]) held n := by
  intro u present
  obtain ⟨k,small,found⟩ := before u present
  refine ⟨k,small,?_⟩
  rw [List.getElem?_append_left (by omega)]
  exact found

omit [DecidableEq T] in
theorem Truthful.grow {given : Reply V} (truthful : Truthful log held n given) (v : V) (within : n ≤ log.length) :
    Truthful (log ++ [v]) held n given := by
  cases given with
  | unchanged =>
    obtain ⟨u,present,last⟩ := truthful
    refine ⟨u,present,?_⟩
    rw [List.take_append_of_le_length within]
    exact last
  | changed u =>
    rw [Truthful,List.take_append_of_le_length within]
    exact truthful
  | failed => trivial

/-- An unchanged answer is given only while the client holds the entry served. -/
theorem truthful_reply (distinct : (log.map tag).Nodup) (before : Before log held log.length) :
    Truthful log held log.length (reply tag log.getLast? (held.map tag)) := by
  cases last : log.getLast? with
  | none => trivial
  | some v =>
    rw [reply]
    split
    next same =>
      obtain ⟨u,present,equal⟩ := Option.map_eq_some_iff.mp same
      obtain ⟨k,_,found⟩ := before u present
      have alike : u = v :=
        List.inj_on_of_nodup_map distinct (List.mem_of_getElem? found) (List.mem_of_getLast? last) equal
      refine ⟨u,present,?_⟩
      rw [List.take_length,last,alike]
    next =>
      rw [Truthful,List.take_length]
      exact last

omit [DecidableEq T] in
/-- What an accepted answer installs stands where the log then ended. -/
theorem before_settle {given : Reply V} (before : Before log held n) (truthful : Truthful log held n given)
    (within : n ≤ log.length) : Before log (settle accepts held given) n := by
  cases given with
  | unchanged => exact before
  | failed => exact before
  | changed v =>
    intro u present
    rw [settle] at present
    split at present
    next =>
      cases present
      obtain ⟨k,small,found⟩ := List.getElem_of_mem (List.mem_of_getLast? truthful)
      rw [List.length_take] at small
      rw [List.getElem_take] at found
      exact ⟨k,by omega,List.getElem?_eq_some_iff.mpr ⟨by omega,found⟩⟩
    next => exact before u present

theorem Sound.step {s : State V T} (sound : Sound tag s) (distinct : (s.log.map tag).Nodup) (move : Move V) :
    Sound tag (step tag accepts s move) := by
  obtain ⟨log,held,phase⟩ := s
  obtain ⟨before,promises⟩ := sound
  cases move with
  | commit v =>
    constructor
    · intro u present
      obtain ⟨k,small,found⟩ := before.grow v (Nat.le_refl _) u present
      have grown : log.length ≤ (log ++ [v]).length := by simp
      exact ⟨k,Nat.lt_of_lt_of_le small grown,found⟩
    · cases phase with
      | idle => trivial
      | asked asked => exact promises
      | answered given n =>
        obtain ⟨within,earlier,truthful⟩ := promises
        have grown : log.length ≤ (log ++ [v]).length := by simp
        exact ⟨Nat.le_trans within grown,earlier.grow v within,truthful.grow v within⟩
  | ask =>
    cases phase with
    | idle => exact ⟨before,rfl⟩
    | asked asked => exact ⟨before,promises⟩
    | answered given n => exact ⟨before,promises⟩
  | answer =>
    cases phase with
    | idle => exact ⟨before,trivial⟩
    | asked asked =>
      have same : asked = held.map tag := promises
      subst same
      exact ⟨before,Nat.le_refl _,before,truthful_reply distinct before⟩
    | answered given n => exact ⟨before,promises⟩
  | lose =>
    cases phase with
    | idle => exact ⟨before,trivial⟩
    | asked asked => exact ⟨before,Nat.le_refl _,before,trivial⟩
    | answered given n => exact ⟨before,Nat.le_refl _,before,trivial⟩
  | finish =>
    cases phase with
    | idle => exact ⟨before,trivial⟩
    | asked asked => exact ⟨before,promises⟩
    | answered given n =>
      obtain ⟨within,earlier,truthful⟩ := promises
      refine ⟨?_,trivial⟩
      intro u present
      obtain ⟨k,small,found⟩ := before_settle earlier truthful within u present
      exact ⟨k,Nat.lt_of_lt_of_le small within,found⟩

omit [DecidableEq T] in
theorem Advances.refl (s : State V T) : Advances s s :=
  ⟨List.prefix_rfl,fun v present k found => ⟨v,present,k,Nat.le_refl k,found⟩⟩

omit [DecidableEq T] in
theorem Advances.trans {a b c : State V T} (first : Advances a b) (second : Advances b c) : Advances a c := by
  refine ⟨first.log.trans second.log,fun v present k found => ?_⟩
  obtain ⟨w,there,l,later,found'⟩ := first.held v present k found
  obtain ⟨u,here,m,last,found''⟩ := second.held w there l found'
  exact ⟨u,here,m,Nat.le_trans later last,found''⟩

omit [DecidableEq T] in
/-- While nothing is installed only the log can change. -/
theorem Advances.kept {before after : State V T} (log : before.log <+: after.log) (held : after.held = before.held) :
    Advances before after := by
  refine ⟨log,fun v present k found => ⟨v,held ▸ present,k,Nat.le_refl k,?_⟩⟩
  obtain ⟨more,grown⟩ := log
  obtain ⟨small,_⟩ := List.getElem?_eq_some_iff.mp found
  rw [← grown,List.getElem?_append_left small]
  exact found

theorem advances_step {s : State V T} (sound : Sound tag s) (distinct : (s.log.map tag).Nodup) (move : Move V) :
    Advances s (step tag accepts s move) := by
  obtain ⟨log,held,phase⟩ := s
  obtain ⟨_,promises⟩ := sound
  cases move with
  | commit v => exact Advances.kept (List.prefix_append log [v]) rfl
  | ask => cases phase <;> exact Advances.kept List.prefix_rfl rfl
  | answer => cases phase <;> exact Advances.kept List.prefix_rfl rfl
  | lose => cases phase <;> exact Advances.kept List.prefix_rfl rfl
  | finish =>
    cases phase with
    | idle => exact Advances.kept List.prefix_rfl rfl
    | asked asked => exact Advances.kept List.prefix_rfl rfl
    | answered given n =>
      obtain ⟨within,earlier,truthful⟩ := promises
      cases given with
      | unchanged => exact Advances.kept List.prefix_rfl rfl
      | failed => exact Advances.kept List.prefix_rfl rfl
      | changed v =>
        by_cases taken : accepts v = true
        · refine ⟨List.prefix_rfl,fun u present k found => ⟨v,?_,n - 1,?_,?_⟩⟩
          · simp [step,settle,taken]
          · -- What is held stands once in the log, before the end the answer saw.
            obtain ⟨l,small,there⟩ := earlier u present
            have once : log.Nodup := List.Nodup.of_map tag distinct
            have same : k = l := by
              obtain ⟨inside,value⟩ := List.getElem?_eq_some_iff.mp found
              obtain ⟨inside',value'⟩ := List.getElem?_eq_some_iff.mp there
              exact once.getElem_inj_iff.mp (value.trans value'.symm)
            omega
          · rw [Truthful,List.getLast?_eq_getElem?,List.length_take,Nat.min_eq_left within] at truthful
            have positive : n ≠ 0 := by
              rintro rfl
              simp at truthful
            rw [List.getElem?_take_of_lt (by omega)] at truthful
            exact truthful
        · exact Advances.kept List.prefix_rfl (by simp [step,settle,taken])

/-- A poll that is answered, and whose answer is accepted, ends with what was served when the
answer was given. -/
theorem held_finish {s : State V T} (sound : Sound tag s) {given : Reply V} (answered : s.phase = .answered given n)
    (arrived : given ≠ .failed) (accepted : ∀ v, given = .changed v → accepts v = true) :
    (step tag accepts s .finish).held = (s.log.take n).getLast? := by
  obtain ⟨log,held,phase⟩ := s
  subst answered
  obtain ⟨_,_,_,truthful⟩ := sound
  cases given with
  | unchanged =>
    obtain ⟨v,present,last⟩ := truthful
    exact present.trans last.symm
  | changed v => simpa [step,settle,accepted v rfl] using truthful.symm
  | failed => exact absurd rfl arrived

theorem run_log (s : State V T) (moves : List (Move V)) : s.log <+: (run tag accepts s moves).log := by
  induction moves generalizing s with
  | nil => exact List.prefix_rfl
  | cons move rest ih =>
    have first : s.log <+: (step tag accepts s move).log := by
      cases move with
      | commit v => exact List.prefix_append _ _
      | _ => cases shape : s.phase <;> simp [step,shape]
    exact first.trans (ih _)

/-- While no two entries of the log share a tag, the client never goes back. -/
theorem Sound.run {s : State V T} (sound : Sound tag s) {moves : List (Move V)}
    (distinct : ((run tag accepts s moves).log.map tag).Nodup) :
    Sound tag (run tag accepts s moves) ∧ Advances s (run tag accepts s moves) := by
  induction moves generalizing s with
  | nil => exact ⟨sound,Advances.refl s⟩
  | cons move rest ih =>
    have now : (s.log.map tag).Nodup := distinct.sublist (((run_log s (move::rest)).map tag).sublist)
    obtain ⟨last,later⟩ := ih (sound.step now move) distinct
    exact ⟨last,(advances_step sound now move).trans later⟩

end Kit.Polling
