import Mathlib.Data.List.Nodup
import Mathlib.Logic.Function.Basic

/-! Optimistic concurrency on one row: clients that read it, check a token in it, and
later write without looking again, in any interleaving. -/
namespace Kit.Optimistic

variable {R A W : Type*}

/-- What one client does: the token it carries, what it computes from the row and the
rest of the store it read, and what its write does to the row and the rest by then. -/
structure Client (R A W : Type*) where
  expects : Nat
  compute : R → A → Option W
  write : W → Option R → A → Option (Option R × A)

inductive Session (R A W : Type*) where
  | idle
  | read (row : R)
  | ready (row : R) (seen : A) (change : W)
  | closed

/-- The row read by a session that is still open. -/
def Session.held : Session R A W → Option R
  | .read row => some row
  | .ready row _ _ => some row
  | _ => none

/-- The store, the open transactions, and the clients that committed with their tokens. -/
structure World (R A W : Type*) where
  row : Option R
  rest : A
  sessions : Nat → Session R A W
  log : List (Nat × Nat)

def World.tokens (w : World R A W) : List Nat := w.log.map Prod.snd

def World.setSession (w : World R A W) (i : Nat) (s : Session R A W) : World R A W :=
  { w with sessions := Function.update w.sessions i s }

/-- A store before any of the clients has started. -/
def World.start (row : Option R) (rest : A) : World R A W := ⟨row,rest,fun _ => .idle,[]⟩

variable (token : R → Nat) (clients : Nat → Client R A W)

/-- The next step of client `i`: it reads and checks the token, computes, and commits. -/
def step (w : World R A W) (i : Nat) : World R A W :=
  match w.sessions i with
  | .idle =>
    match w.row with
    | some row => w.setSession i (if (clients i).expects = token row then .read row else .closed)
    | none => w.setSession i .closed
  | .read row =>
    match (clients i).compute row w.rest with
    | some change => w.setSession i (.ready row w.rest change)
    | none => w.setSession i .closed
  | .ready _ _ change =>
    match (clients i).write change w.row w.rest with
    | some (row,rest) =>
      { row := row, rest := rest, sessions := Function.update w.sessions i .closed,
        log := w.log ++ [(i,(clients i).expects)] }
    | none => w.setSession i .closed
  | .closed => w

def run : World R A W → List Nat → World R A W
  | w,[] => w
  | w,i::schedule => run (step token clients w i) schedule

/-- Client `i` is about to commit, with this effect. -/
structure Commits (w : World R A W) (i : Nat) (row : R) (seen : A) (change : W) (out : Option R × A) : Prop where
  ready : w.sessions i = .ready row seen change
  written : (clients i).write change w.row w.rest = some out

/-- If client `i` commits now, the row is still the one it read. -/
def FreshStep (w : World R A W) (i : Nat) : Prop :=
  ∀ row seen change out, Commits clients w i row seen change out → w.row = some row

/-- Every commit of the interleaving finds the row as its client read it. -/
def Fresh : World R A W → List Nat → Prop
  | _,[] => True
  | w,i::schedule => FreshStep clients w i ∧ Fresh (step token clients w i) schedule

/-- What the clients' writes do to a row they find as they read it: they take it away or
raise its token, and leave the rest alone in the second case. -/
structure Raises : Prop where
  raises : ∀ i row seen change rest out, (clients i).compute row seen = some change →
    (clients i).write change (some row) rest = some out →
      out.1 = none ∨ ∃ next, out.1 = some next ∧ token row < token next ∧ out.2 = rest

variable {token clients}

theorem step_commits {w : World R A W} {i : Nat} {row : R} {seen : A} {change : W} {out : Option R × A}
    (commits : Commits clients w i row seen change out) :
    step token clients w i = ⟨out.1,out.2,Function.update w.sessions i .closed,w.log ++ [(i,(clients i).expects)]⟩ := by
  rw [step,commits.ready]
  simp only [commits.written]

variable (token clients) in
/-- A step either commits or touches nothing but the client's own session. -/
theorem step_cases (w : World R A W) (i : Nat) :
    (∃ row seen change out, Commits clients w i row seen change out) ∨
      ∃ s, step token clients w i = w.setSession i s ∧
        (s = .closed ∨ s = w.sessions i ∨
          (∃ row, w.row = some row ∧ (clients i).expects = token row ∧ s = .read row) ∨
          ∃ row change, w.sessions i = .read row ∧ (clients i).compute row w.rest = some change ∧
            s = .ready row w.rest change) := by
  cases session : w.sessions i with
  | idle =>
    refine Or.inr ?_
    cases found : w.row with
    | none => exact ⟨.closed,by rw [step,session]; simp only [found],Or.inl rfl⟩
    | some row =>
      refine ⟨if (clients i).expects = token row then .read row else .closed,by rw [step,session]; simp only [found],?_⟩
      split
      next same => exact Or.inr (Or.inr (Or.inl ⟨row,rfl,same,rfl⟩))
      next other => exact Or.inl rfl
  | read row =>
    refine Or.inr ?_
    cases computed : (clients i).compute row w.rest with
    | none => exact ⟨.closed,by rw [step,session]; simp only [computed],Or.inl rfl⟩
    | some change =>
      exact ⟨_,by rw [step,session]; simp only [computed],Or.inr (Or.inr (Or.inr ⟨row,change,rfl,computed,rfl⟩))⟩
  | ready row seen change =>
    cases written : (clients i).write change w.row w.rest with
    | none => exact Or.inr ⟨.closed,by rw [step,session]; simp only [written],Or.inl rfl⟩
    | some out => exact Or.inl ⟨row,seen,change,out,session,written⟩
  | closed =>
    refine Or.inr ⟨.closed,?_,Or.inl rfl⟩
    rw [step,session]
    simp only [World.setSession,← session,Function.update_eq_self]

/-- What holds while every commit so far was fresh. -/
structure Sound (token : R → Nat) (clients : Nat → Client R A W) (w : World R A W) : Prop where
  below : ∀ t ∈ w.tokens, ∀ row, w.row = some row → t < token row
  distinct : w.tokens.Nodup
  carried : ∀ i row, (w.sessions i).held = some row → (clients i).expects = token row
  current : ∀ i row, (w.sessions i).held = some row → w.row = some row ∨ token row ∈ w.tokens
  computed : ∀ i row seen change, w.sessions i = .ready row seen change → (clients i).compute row seen = some change
  unmoved : ∀ i row seen change, w.sessions i = .ready row seen change → w.row = some row → w.rest = seen

theorem Sound.start (row : Option R) (rest : A) : Sound token clients (World.start row rest : World R A W) where
  below := by simp [World.tokens,World.start]
  distinct := by simp [World.tokens,World.start]
  carried := by simp [World.start,Session.held]
  current := by simp [World.start,Session.held]
  computed := by simp [World.start]
  unmoved := by simp [World.start]

theorem held_update_closed {sessions : Nat → Session R A W} {i j : Nat} {row : R}
    (held : (Function.update sessions i .closed j).held = some row) : (sessions j).held = some row ∧ j ≠ i := by
  by_cases same : j = i
  · rw [same,Function.update_self] at held
    cases held
  · rw [Function.update_of_ne same] at held
    exact ⟨held,same⟩

/-- A fresh commit keeps all of it: the token it carried was the row's, and no longer is. -/
theorem Sound.commit {w : World R A W} {i : Nat} {row : R} {seen : A} {change : W} {out : Option R × A}
    (sound : Sound token clients w) (raise : Raises token clients)
    (commits : Commits clients w i row seen change out) (fresh : w.row = some row) :
    Sound token clients (step token clients w i) := by
  have held : (w.sessions i).held = some row := by rw [commits.ready]; rfl
  have carried : (clients i).expects = token row := sound.carried i row held
  have logged : (w.log ++ [(i,(clients i).expects)]).map Prod.snd = w.tokens ++ [token row] := by
    simp [World.tokens,carried]
  have effect := raise.raises i row seen change w.rest out (sound.computed i row seen change commits.ready)
    (fresh ▸ commits.written)
  rw [step_commits commits]
  refine ⟨?_,?_,?_,?_,?_,?_⟩
  · intro t member next stored
    rw [World.tokens,logged,List.mem_append,List.mem_singleton] at member
    change out.1 = some next at stored
    rcases effect with gone | ⟨raised,kept,grows,_⟩
    · rw [gone] at stored
      cases stored
    · rw [kept] at stored
      cases stored
      rcases member with old | rfl
      · exact Nat.lt_trans (sound.below t old row fresh) grows
      · exact grows
  · rw [World.tokens,logged]
    refine List.nodup_append'.mpr ⟨sound.distinct,List.nodup_singleton _,?_⟩
    rw [List.disjoint_singleton]
    intro used
    exact absurd (sound.below _ used row fresh) (Nat.lt_irrefl _)
  · intro j other open_
    exact sound.carried j other (held_update_closed open_).1
  · intro j other open_
    obtain ⟨before,_⟩ := held_update_closed open_
    rw [World.tokens,logged,List.mem_append,List.mem_singleton]
    rcases sound.current j other before with still | used
    · rw [fresh] at still
      cases still
      exact Or.inr (Or.inr rfl)
    · exact Or.inr (Or.inl used)
  · intro j other view edit pending
    change Function.update w.sessions i .closed j = _ at pending
    by_cases same : j = i
    · rw [same,Function.update_self] at pending
      cases pending
    · rw [Function.update_of_ne same] at pending
      exact sound.computed j other view edit pending
  · intro j other view edit pending stored
    change Function.update w.sessions i .closed j = _ at pending
    by_cases same : j = i
    · rw [same,Function.update_self] at pending
      cases pending
    · rw [Function.update_of_ne same] at pending
      change out.1 = some other at stored
      -- The row another client holds is not the raised one: its token is below.
      rcases effect with gone | ⟨raised,kept,grows,_⟩
      · rw [gone] at stored
        cases stored
      · rw [kept] at stored
        cases stored
        have open_ : (w.sessions j).held = some other := by rw [pending]; rfl
        rcases sound.current j other open_ with still | used
        · rw [fresh] at still
          cases still
          exact absurd grows (Nat.lt_irrefl _)
        · exact absurd (Nat.lt_trans (sound.below _ used row fresh) grows) (Nat.lt_irrefl _)

/-- A step that commits nothing keeps all of it. -/
theorem Sound.setSession {w : World R A W} {i : Nat} {s : Session R A W} (sound : Sound token clients w)
    (kind : s = .closed ∨ s = w.sessions i ∨
      (∃ row, w.row = some row ∧ (clients i).expects = token row ∧ s = .read row) ∨
      ∃ row change, w.sessions i = .read row ∧ (clients i).compute row w.rest = some change ∧
        s = .ready row w.rest change) : Sound token clients (w.setSession i s) := by
  have holds : ∀ j row, ((w.setSession i s).sessions j).held = some row →
      (clients j).expects = token row ∧ (w.row = some row ∨ token row ∈ w.tokens) := by
    intro j row open_
    change (Function.update w.sessions i s j).held = some row at open_
    by_cases same : j = i
    · subst same
      rw [Function.update_self] at open_
      rcases kind with rfl | rfl | ⟨found,stored,carried,rfl⟩ | ⟨found,change,session,_,rfl⟩
      · cases open_
      · exact ⟨sound.carried j row open_,sound.current j row open_⟩
      · cases open_
        exact ⟨carried,Or.inl stored⟩
      · cases open_
        have before : (w.sessions j).held = some row := by rw [session]; rfl
        exact ⟨sound.carried j row before,sound.current j row before⟩
    · rw [Function.update_of_ne same] at open_
      exact ⟨sound.carried j row open_,sound.current j row open_⟩
  have pending : ∀ j row seen change, (w.setSession i s).sessions j = .ready row seen change →
      (clients j).compute row seen = some change ∧ (w.row = some row → w.rest = seen) := by
    intro j row seen change ready
    change Function.update w.sessions i s j = _ at ready
    by_cases same : j = i
    · subst same
      rw [Function.update_self] at ready
      rcases kind with rfl | rfl | ⟨_,_,_,rfl⟩ | ⟨found,edit,_,computed,rfl⟩
      · cases ready
      · exact ⟨sound.computed j row seen change ready,sound.unmoved j row seen change ready⟩
      · cases ready
      · cases ready
        exact ⟨computed,fun _ => rfl⟩
    · rw [Function.update_of_ne same] at ready
      exact ⟨sound.computed j row seen change ready,sound.unmoved j row seen change ready⟩
  exact ⟨sound.below,sound.distinct,fun j row open_ => (holds j row open_).1,fun j row open_ => (holds j row open_).2,
    fun j row seen change ready => (pending j row seen change ready).1,
    fun j row seen change ready => (pending j row seen change ready).2⟩

theorem Sound.step {w : World R A W} {i : Nat} (sound : Sound token clients w) (raise : Raises token clients)
    (fresh : FreshStep clients w i) : Sound token clients (step token clients w i) := by
  rcases step_cases token clients w i with ⟨row,seen,change,out,commits⟩ | ⟨s,moved,kind⟩
  · exact sound.commit raise commits (fresh row seen change out commits)
  · rw [moved]
    exact sound.setSession kind

theorem Sound.run {w : World R A W} {schedule : List Nat} (sound : Sound token clients w)
    (raise : Raises token clients) (fresh : Fresh token clients w schedule) :
    Sound token clients (run token clients w schedule) := by
  induction schedule generalizing w with
  | nil => exact sound
  | cons i schedule ih => exact ih (sound.step raise fresh.1) fresh.2

theorem prefix_tokens_step (w : World R A W) (i : Nat) : w.tokens <+: (step token clients w i).tokens := by
  rcases step_cases token clients w i with ⟨row,seen,change,out,commits⟩ | ⟨s,moved,_⟩
  · rw [step_commits commits]
    simp [World.tokens]
  · rw [moved]
    exact List.prefix_refl _

theorem prefix_tokens_run (w : World R A W) (schedule : List Nat) :
    w.tokens <+: (run token clients w schedule).tokens := by
  induction schedule generalizing w with
  | nil => exact List.prefix_refl _
  | cons i schedule ih => exact (prefix_tokens_step w i).trans (ih _)

/-- No token is used twice exactly when every commit finds the row as its client read it. -/
theorem tokens_nodup_iff {w : World R A W} {schedule : List Nat} (sound : Sound token clients w)
    (raise : Raises token clients) :
    (run token clients w schedule).tokens.Nodup ↔ Fresh token clients w schedule := by
  constructor
  · intro distinct
    induction schedule generalizing w with
    | nil => trivial
    | cons i schedule ih =>
      have first : FreshStep clients w i := by
        intro row seen change out commits
        have held : (w.sessions i).held = some row := by rw [commits.ready]; rfl
        rcases sound.current i row held with still | used
        · exact still
        · have stepped := (prefix_tokens_run (step token clients w i) schedule).sublist.nodup distinct
          rw [step_commits commits] at stepped
          simp only [World.tokens,List.map_append,List.map_cons,List.map_nil,sound.carried i row held] at stepped
          exact absurd rfl ((List.nodup_append.mp stepped).2.2 _ used _ List.mem_cons_self)
      exact ⟨first,ih (sound.step raise first) distinct⟩
  · intro fresh
    exact (sound.run raise fresh).distinct

/-- What fresh commits keep, an interleaving of fresh commits keeps. A fresh commit also
finds the rest of the store as its client saw it. -/
theorem run_keeps (kept : World R A W → Prop) {w : World R A W} {schedule : List Nat}
    (sessions : ∀ w i s, kept w → kept (World.setSession w i s))
    (commit : ∀ w i row seen change out, kept w → Commits clients w i row seen change out → w.row = some row →
      w.rest = seen → (clients i).compute row seen = some change → kept (step token clients w i))
    (sound : Sound token clients w) (raise : Raises token clients) (fresh : Fresh token clients w schedule)
    (start : kept w) : kept (run token clients w schedule) := by
  induction schedule generalizing w with
  | nil => exact start
  | cons i schedule ih =>
    refine ih (sound.step raise fresh.1) fresh.2 ?_
    rcases step_cases token clients w i with ⟨row,seen,change,out,commits⟩ | ⟨s,moved,_⟩
    · have still := fresh.1 row seen change out commits
      exact commit w i row seen change out start commits still (sound.unmoved i row seen change commits.ready still)
        (sound.computed i row seen change commits.ready)
    · rw [moved]
      exact sessions w i s start

end Kit.Optimistic
