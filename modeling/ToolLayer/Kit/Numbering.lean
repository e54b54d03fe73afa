import Mathlib.Data.List.Nodup
import Mathlib.Data.List.Range
import Mathlib.Logic.Function.Basic

/-! Rows that concurrent transactions number under a unique constraint: each reads the highest
number, later loads the rows to retire, and inserts the next one. -/
namespace Kit.Numbering

variable {R : Type*}

/-- A row has a number and may be the one in service; retiring it keeps its number. -/
structure Table (R : Type*) where
  number : R → Nat
  live : R → Bool
  retire : R → R
  number_retire : ∀ r, number (retire r) = number r
  live_retire : ∀ r, live (retire r) = false

variable (table : Table R)

/-- Numbers without gaps, in order, and only the last row in service. -/
structure Numbered (rows : List R) : Prop where
  numbers : rows.map table.number = List.range' 1 rows.length
  live_iff : ∀ r ∈ rows, table.live r = true ↔ table.number r = rows.length

def nextNumber (rows : List R) : Nat := 1 + (rows.map table.number).foldl max 0

/-- The retired rows by number, and the new one at the end. -/
def insertRow (retired : List Nat) (row : R) (rows : List R) : List R :=
  rows.map (fun r => if table.number r ∈ retired then table.retire r else r) ++ [row]

inductive Session (R : Type*) where
  | idle
  | numbered (next : Nat)
  | loaded (row : R) (seen : List Nat)
  | inserted (row : R) (seen : List Nat)
  | closed

/-- The committed rows and the transactions. -/
structure World (R : Type*) where
  rows : List R
  sessions : Nat → Session R

def World.start (rows : List R) : World R := ⟨rows,fun _ => .idle⟩

def World.setSession (w : World R) (i : Nat) (s : Session R) : World R :=
  { w with sessions := Function.update w.sessions i s }

/-- A transaction goes on, or gives up for a reason of its own. -/
inductive Event where
  | advance (i : Nat)
  | abandon (i : Nat)

/-- What the transactions put under the number they read, if anything. -/
structure Writers where
  build : Nat → Nat → Option R
  number_build : ∀ i next row, build i next = some row → table.number row = next
  live_build : ∀ i next row, build i next = some row → table.live row = true

variable {table} (writers : Writers table)

/-- The next step of transaction `i`. Reads see the committed rows; the insertion and the commit are
refused when the number is taken. -/
def advance (w : World R) (i : Nat) : World R :=
  match w.sessions i with
  | .idle => w.setSession i (.numbered (nextNumber table w.rows))
  | .numbered next =>
    match writers.build i next with
    | some row => w.setSession i (.loaded row (w.rows.map table.number))
    | none => w.setSession i .closed
  | .loaded row seen =>
    if table.number row ∈ w.rows.map table.number then w.setSession i .closed else w.setSession i (.inserted row seen)
  | .inserted row seen =>
    if table.number row ∈ w.rows.map table.number then w.setSession i .closed
    else { rows := insertRow table seen row w.rows, sessions := Function.update w.sessions i .closed }
  | .closed => w

def step (w : World R) : Event → World R
  | .advance i => advance writers w i
  | .abandon i => w.setSession i .closed

def run : World R → List Event → World R
  | w,[] => w
  | w,event::schedule => run (step writers w event) schedule

variable (table) in
/-- The row of a transaction that may still commit; the transaction has loaded every row there is. -/
structure Pending (rows : List R) (row : R) (seen : List Nat) : Prop where
  live : table.live row = true
  positive : 1 ≤ table.number row
  atMost : table.number row ≤ rows.length + 1
  all : table.number row = rows.length + 1 → seen = List.range' 1 rows.length

variable (table) in
def Covers (rows : List R) : Session R → Prop
  | .numbered next => 1 ≤ next ∧ next ≤ rows.length + 1
  | .loaded row seen => Pending table rows row seen
  | .inserted row seen => Pending table rows row seen
  | _ => True

variable (table) in
structure Sound (w : World R) : Prop where
  numbered : Numbered table w.rows
  covers : ∀ i, Covers table w.rows (w.sessions i)

variable {writers}

theorem foldl_max_range' (n : Nat) : (List.range' 1 n).foldl max 0 = n := by
  induction n with
  | zero => rfl
  | succ n ih =>
    rw [List.range'_1_concat,List.foldl_append,ih]
    simp only [List.foldl_cons,List.foldl_nil]
    omega

theorem Numbered.nextNumber_eq {rows : List R} (numbered : Numbered table rows) :
    nextNumber table rows = rows.length + 1 := by
  rw [nextNumber,numbered.numbers,foldl_max_range']
  omega

theorem Numbered.mem_numbers {rows : List R} (numbered : Numbered table rows) {n : Nat} :
    n ∈ rows.map table.number ↔ 1 ≤ n ∧ n ≤ rows.length := by
  rw [numbered.numbers,List.mem_range'_1]
  omega

/-- Retiring every row and appending the next number keeps the numbering. -/
theorem Numbered.insertRow {rows : List R} (numbered : Numbered table rows) {row : R}
    (next : table.number row = rows.length + 1) (live : table.live row = true) :
    Numbered table (insertRow table (List.range' 1 rows.length) row rows) := by
  have retired : Numbering.insertRow table (List.range' 1 rows.length) row rows = rows.map table.retire ++ [row] := by
    rw [Numbering.insertRow]
    congr 1
    apply List.map_congr_left
    intro r member
    rw [if_pos (numbered.numbers ▸ List.mem_map_of_mem member)]
  rw [retired]
  refine ⟨?_,?_⟩
  · rw [List.map_append,List.map_map,List.length_append,List.length_map,List.length_singleton,List.range'_1_concat,
      ← numbered.numbers]
    congr 1
    · exact List.map_congr_left (fun r _ => table.number_retire r)
    · simp [next,Nat.add_comm]
  · intro r member
    rw [List.length_append,List.length_map,List.length_singleton]
    rcases List.mem_append.mp member with old | new
    · obtain ⟨before,inside,rfl⟩ := List.mem_map.mp old
      have bound := numbered.mem_numbers.mp (List.mem_map_of_mem inside)
      rw [table.live_retire,table.number_retire]
      simp only [Bool.false_eq_true,false_iff]
      omega
    · rw [List.mem_singleton.mp new]
      exact ⟨fun _ => next,fun _ => live⟩

theorem Sound.start {rows : List R} (numbered : Numbered table rows) : Sound table (World.start rows) :=
  ⟨numbered,fun _ => trivial⟩

theorem Sound.setSession {w : World R} {i : Nat} {s : Session R} (sound : Sound table w)
    (covers : Covers table w.rows s) : Sound table (w.setSession i s) := by
  refine ⟨sound.numbered,fun j => ?_⟩
  change Covers table w.rows (Function.update w.sessions i s j)
  by_cases same : j = i
  · rw [same,Function.update_self]
    exact covers
  · rw [Function.update_of_ne same]
    exact sound.covers j

theorem Pending.grow {rows grown : List R} {row : R} {seen : List Nat} (pending : Pending table rows row seen)
    (longer : grown.length = rows.length + 1) : Pending table grown row seen := by
  obtain ⟨live,positive,atMost,_⟩ := pending
  exact ⟨live,positive,by omega,fun next => by omega⟩

/-- After a commit no open transaction can commit the number after the new row. -/
theorem Covers.grow {rows grown : List R} {s : Session R} (covers : Covers table rows s)
    (longer : grown.length = rows.length + 1) : Covers table grown s := by
  cases s with
  | idle => trivial
  | numbered next =>
    simp only [Covers] at covers ⊢
    omega
  | loaded row seen => exact Pending.grow covers longer
  | inserted row seen => exact Pending.grow covers longer
  | closed => trivial

/-- A commit that the constraint lets through found no row its transaction had not loaded. -/
theorem Sound.commit {w : World R} {i : Nat} {row : R} {seen : List Nat} (sound : Sound table w)
    (session : w.sessions i = .inserted row seen) (free : table.number row ∉ w.rows.map table.number) :
    Sound table ⟨insertRow table seen row w.rows,Function.update w.sessions i .closed⟩ := by
  have covers := sound.covers i
  rw [session] at covers
  obtain ⟨live,positive,atMost,all⟩ := covers
  rw [sound.numbered.mem_numbers] at free
  have next : table.number row = w.rows.length + 1 := by omega
  refine ⟨all next ▸ sound.numbered.insertRow next live,fun j => ?_⟩
  by_cases same : j = i
  · rw [same]
    simp only [Function.update_self]
    trivial
  · simp only [Function.update_of_ne same]
    exact (sound.covers j).grow (by simp [insertRow])

theorem Sound.advance {w : World R} (sound : Sound table w) (i : Nat) : Sound table (advance writers w i) := by
  have covers := sound.covers i
  unfold Numbering.advance
  cases session : w.sessions i with
  | idle =>
    refine sound.setSession ?_
    rw [sound.numbered.nextNumber_eq]
    exact ⟨by omega,by omega⟩
  | numbered next =>
    rw [session] at covers
    simp only
    cases built : writers.build i next with
    | none => exact sound.setSession trivial
    | some row =>
      have number := writers.number_build i next row built
      exact sound.setSession ⟨writers.live_build i next row built,number ▸ covers.1,number ▸ covers.2,
        fun _ => sound.numbered.numbers⟩
  | loaded row seen =>
    rw [session] at covers
    simp only
    split
    next => exact sound.setSession trivial
    next => exact sound.setSession covers
  | inserted row seen =>
    simp only
    split
    next => exact sound.setSession trivial
    next free => exact sound.commit session free
  | closed => exact sound

theorem Sound.step {w : World R} (sound : Sound table w) (event : Event) : Sound table (step writers w event) := by
  cases event with
  | advance i => exact sound.advance i
  | abandon i => exact sound.setSession trivial

theorem Sound.run {w : World R} (sound : Sound table w) (schedule : List Event) :
    Sound table (run writers w schedule) := by
  induction schedule generalizing w with
  | nil => exact sound
  | cons event schedule ih => exact ih (sound.step event)

/-- Exactly one row of a nonempty numbered table is in service, the last. -/
theorem Numbered.existsUnique_live {rows : List R} (numbered : Numbered table rows) (some_ : rows ≠ []) :
    ∃! r, r ∈ rows ∧ table.live r = true := by
  have positive : 0 < rows.length := List.length_pos_iff.mpr some_
  have top : rows.length ∈ rows.map table.number := numbered.mem_numbers.mpr ⟨positive,le_refl _⟩
  obtain ⟨r,member,number⟩ := List.mem_map.mp top
  have distinct : (rows.map table.number).Nodup := numbered.numbers ▸ List.nodup_range'
  refine ⟨r,⟨member,(numbered.live_iff r member).mpr number⟩,?_⟩
  rintro other ⟨inside,live⟩
  have same := (numbered.live_iff other inside).mp live
  exact List.inj_on_of_nodup_map distinct inside member (same.trans number.symm)

/-- A transaction that runs alone to its commit. -/
theorem run_alone {rows : List R} {i : Nat} {row : R} (built : writers.build i (nextNumber table rows) = some row)
    (free : table.number row ∉ rows.map table.number) :
    (run writers (World.start rows) [.advance i,.advance i,.advance i,.advance i]).rows =
      insertRow table (rows.map table.number) row rows := by
  have read : Numbering.advance writers (World.start rows) i =
      (World.start rows).setSession i (.numbered (nextNumber table rows)) := rfl
  have loaded : Numbering.advance writers ((World.start rows).setSession i (.numbered (nextNumber table rows))) i =
      (World.start rows).setSession i (.loaded row (rows.map table.number)) := by
    simp [Numbering.advance,World.setSession,World.start,built]
  have inserted : Numbering.advance writers ((World.start rows).setSession i (.loaded row (rows.map table.number))) i =
      (World.start rows).setSession i (.inserted row (rows.map table.number)) := by
    simp only [Numbering.advance,World.setSession,World.start,Function.update_self,if_neg free,Function.update_idem]
  have committed : Numbering.advance writers ((World.start rows).setSession i (.inserted row (rows.map table.number))) i =
      ⟨insertRow table (rows.map table.number) row rows,
        Function.update (Function.update (fun _ => .idle) i (.inserted row (rows.map table.number))) i .closed⟩ := by
    simp only [Numbering.advance,World.setSession,World.start,Function.update_self]
    exact if_neg free
  simp only [Numbering.run,Numbering.step]
  rw [read,loaded,inserted,committed]

end Kit.Numbering
