import ToolLayer.Kit.Split

/-! Texts with named holes between an opening and a closing mark: reading one,
filling it, and cutting it at separators that no hole name contains. -/
namespace Kit.Template

variable {A : Type*}

inductive Piece (A : Type*) where
  | literal (a : A)
  | hole (name : List A)

def holes : List (Piece A) → List (List A)
  | [] => []
  | .literal _::rest => holes rest
  | .hole name::rest => name :: holes rest

/-- One piece with its hole given a text. -/
def fill (value : List A → List A) : Piece A → List A
  | .literal a => [a]
  | .hole name => value name

def expand (value : List A → List A) (pieces : List (Piece A)) : List A := pieces.flatMap (fill value)

@[simp] theorem expand_nil (value : List A → List A) : expand value [] = [] := rfl

@[simp] theorem expand_cons (value : List A → List A) (piece : Piece A) (rest : List (Piece A)) :
    expand value (piece::rest) = fill value piece ++ expand value rest := rfl

theorem mem_holes {name : List A} {pieces : List (Piece A)} :
    name ∈ holes pieces ↔ .hole name ∈ pieces := by
  induction pieces with
  | nil => simp [holes]
  | cons piece rest ih => cases piece <;> simp [holes,ih]

/-- Filling depends on the values of the holes that occur. -/
theorem expand_congr {value other : List A → List A} {pieces : List (Piece A)}
    (same : ∀ name ∈ holes pieces, value name = other name) : expand value pieces = expand other pieces := by
  induction pieces with
  | nil => rfl
  | cons piece rest ih =>
    cases piece with
    | literal a => rw [expand_cons,expand_cons,ih same]; rfl
    | hole name =>
      rw [expand_cons,expand_cons,ih (fun n member => same n (by simp [holes,member]))]
      simp [fill,same name (by simp [holes])]

/-- A value without some mark adds none to the literals' own. -/
theorem count_expand [BEq A] [LawfulBEq A] {a : A} {value : List A → List A} {pieces : List (Piece A)}
    (absent : ∀ name, a ∉ value name) : (expand value pieces).count a = (expand (fun _ => []) pieces).count a := by
  induction pieces with
  | nil => rfl
  | cons piece rest ih =>
    rw [expand_cons,expand_cons,List.count_append,List.count_append,ih]
    cases piece with
    | literal b => rfl
    | hole name => rw [fill,fill,List.count_eq_zero_of_not_mem (absent name),List.count_nil]

section Marks

variable (opening closing : A)

def mark (name : List A) : List A := opening :: (name ++ [closing])

/-- The text the pieces were read from. -/
def source (pieces : List (Piece A)) : List A := expand (mark opening closing) pieces

def clean : Piece A → Prop
  | .literal a => a ≠ opening ∧ a ≠ closing
  | .hole name => opening ∉ name ∧ closing ∉ name

/-- One marked name starts a text that begins with another only if they are equal. -/
theorem name_of_mark_prefix {name other rest : List A} (nameClean : closing ∉ name) (otherClean : closing ∉ other)
    (starts : mark opening closing name <+: mark opening closing other ++ rest) : name = other := by
  have body : name ++ [closing] <+: other ++ closing::rest := by
    obtain ⟨tail,equal⟩ := starts
    exact ⟨tail,by simpa [mark] using equal⟩
  clear starts
  induction name generalizing other with
  | nil =>
    cases other with
    | nil => rfl
    | cons b other =>
      obtain ⟨tail,equal⟩ := body
      exact absurd (by simp [← (List.cons.inj equal).1]) otherClean
  | cons a name ih =>
    cases other with
    | nil =>
      obtain ⟨tail,equal⟩ := body
      exact absurd (by simp [(List.cons.inj equal).1]) nameClean
    | cons b other =>
      rw [List.cons_append,List.cons_append,List.cons_prefix_cons] at body
      rw [body.1,ih (fun member => nameClean (by simp [member])) (fun member => otherClean (by simp [member]))
        body.2]

variable [DecidableEq A]

/-- Reads a text into pieces; `current` is the name read so far, inside marks. -/
def read : Option (List A) → List A → List (Piece A)
  | _, [] => []
  | none, a::rest => if a = opening then read (some []) rest else .literal a :: read none rest
  | some name, a::rest => if a = closing then .hole name :: read none rest else read (some (name ++ [a])) rest

theorem read_name (name done rest : List A) (absent : closing ∉ name) :
    read opening closing (some done) (name ++ closing::rest) =
      .hole (done ++ name) :: read opening closing none rest := by
  induction name generalizing done with
  | nil => simp [read]
  | cons a name ih =>
    have other : a ≠ closing := by
      intro same
      exact absent (by simp [same])
    rw [List.cons_append,read,if_neg other,ih (done ++ [a]) (fun member => absent (by simp [member]))]
    simp

/-- Clean pieces are read back from their text. -/
theorem read_source (pieces : List (Piece A)) (allClean : ∀ p ∈ pieces, clean opening closing p) :
    read opening closing none (source opening closing pieces) = pieces := by
  induction pieces with
  | nil => rfl
  | cons piece rest ih =>
    have tail := ih (fun p member => allClean p (by simp [member]))
    have first := allClean piece (by simp)
    cases piece with
    | literal a =>
      rw [source,expand_cons,fill,List.singleton_append,read,if_neg first.1]
      exact congrArg _ tail
    | hole name =>
      rw [source,expand_cons,fill,mark,List.cons_append,read,if_pos rfl,List.append_assoc,
        List.singleton_append,read_name opening closing name [] _ first.2]
      exact congrArg _ tail

end Marks

section Separators

variable (sep : A → Bool)

def isSeparator : Piece A → Bool
  | .literal a => sep a
  | .hole _ => false

/-- Cutting the filled text is filling the cut template, when no value brings a
separator in. -/
theorem cut_expand (value : List A → List A) (pieces : List (Piece A))
    (inside : ∀ name ∈ holes pieces, ∀ a ∈ value name, sep a = false) :
    Split.cut sep (expand value pieces) = (Split.cut (isSeparator sep) pieces).map (expand value) := by
  refine Split.cut_flatMap (isSeparator sep) sep (fill value) pieces ?_ ?_
  · intro piece _ at_sep
    cases piece with
    | literal a => exact ⟨a,at_sep,rfl⟩
    | hole name => cases at_sep
  · intro piece member not_sep
    cases piece with
    | literal a =>
      intro b written
      rw [List.mem_singleton.mp written]
      exact not_sep
    | hole name => exact inside name (mem_holes.mpr member)

end Separators

end Kit.Template
