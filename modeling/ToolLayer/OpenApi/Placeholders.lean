import ToolLayer.Kit.Template
import ToolLayer.OpenApi.Converter

/-! A path that passes the placeholder check is a template whose holes are the
path parameters. -/
namespace ToolLayer.OpenApi
open Python Kit Kit.Result


abbrev PathPiece := Template.Piece CodePoint

def sourceOf (pieces : List PathPiece) : Str :=
  Template.source CodePoint.openingBrace CodePoint.closingBrace pieces

def CleanPiece (piece : PathPiece) : Prop :=
  Template.clean CodePoint.openingBrace CodePoint.closingBrace piece

/-- The text from the last opening brace on, or from here when outside braces. -/
def unread (s : PlaceholderScan) (rest : Str) : Str :=
  match s.current with
  | none => rest
  | some name => CodePoint.openingBrace :: (name ++ rest)

theorem unread_none {s : PlaceholderScan} (outside : s.current = none) (rest : Str) : unread s rest = rest := by
  simp only [unread,outside]

theorem unread_some {s : PlaceholderScan} {name : Str} (within : s.current = some name) (rest : Str) :
    unread s rest = CodePoint.openingBrace :: (name ++ rest) := by
  simp only [unread,within]

/-- A finished scan has read the path as literal text and well-braced placeholders. -/
theorem scan_reads (path : Str) (s t : PlaceholderScan) (scanned : loop scanPoint s path = .ok t)
    (closed : t.current = none)
    (inside : ∀ name, s.current = some name →
      CodePoint.openingBrace ∉ name ∧ CodePoint.closingBrace ∉ name) :
    ∃ pieces, (∀ p ∈ pieces, CleanPiece p) ∧ t.found = s.found ++ Template.holes pieces ∧
      sourceOf pieces = unread s path := by
  induction path generalizing s with
  | nil =>
    cases scanned
    exact ⟨[],by simp,by simp [Template.holes],by rw [unread_none closed]; rfl⟩
  | cons c rest ih =>
    obtain ⟨u,stepped,tail⟩ := loop_cons_eq_ok.mp scanned
    unfold scanPoint at stepped
    split at stepped
    next opens =>
      split at stepped
      next => cases stepped
      next outside =>
        cases stepped
        obtain ⟨pieces,clean,found,source⟩ := ih _ tail (by
          intro name start
          cases start
          simp)
        exact ⟨pieces,clean,found,by rw [unread_none outside,source,unread_some rfl,opens]; rfl⟩
    next notOpening =>
      split at stepped
      next closes =>
        split at stepped
        next => cases stepped
        next name within =>
          cases stepped
          obtain ⟨pieces,clean,found,source⟩ := ih _ tail (by simp)
          refine ⟨.hole name::pieces,?_,?_,?_⟩
          · exact List.forall_mem_cons.mpr ⟨inside name within,clean⟩
          · simp [found,Template.holes]
          · rw [unread_none rfl] at source
            rw [unread_some within,closes,← source]
            simp [sourceOf,Template.source,Template.fill,Template.mark]
      next notClosing =>
        split at stepped
        next name within =>
          cases stepped
          obtain ⟨before,after⟩ := inside name within
          obtain ⟨pieces,clean,found,source⟩ := ih _ tail (by
            intro longer start
            cases start
            simp [before,after,Ne.symm notOpening,Ne.symm notClosing])
          exact ⟨pieces,clean,found,by rw [unread_some within,source,unread_some rfl]; simp⟩
        next outside =>
          cases stepped
          obtain ⟨pieces,clean,found,source⟩ := ih s tail inside
          refine ⟨.literal c::pieces,?_,found,?_⟩
          · exact List.forall_mem_cons.mpr ⟨⟨notOpening,notClosing⟩,clean⟩
          · rw [unread_none outside] at source
            rw [unread_none outside,← source]
            rfl

theorem smallest_eq_none {names : List Str} : smallest names = none ↔ names = [] := by
  rw [smallest,List.head?_eq_none_iff,← List.length_eq_zero_iff,List.length_insertionSort,
    List.length_eq_zero_iff]

variable [Unicode]

/-- A checked path is literal text and placeholders, and these are exactly the path parameters. -/
theorem checkPathPlaceholders_eq_ok {path : Str} {parameters : List Parameter}
    (checked : checkPathPlaceholders path parameters = .ok ()) :
    ∃ pieces, (∀ p ∈ pieces, CleanPiece p) ∧ sourceOf pieces = path ∧
      (∀ name, name ∈ Template.holes pieces ↔ ∃ p ∈ parameters, p.location = .path ∧ p.name = name) := by
  unfold checkPathPlaceholders at checked
  obtain ⟨scan,scanned,checked⟩ := bind_eq_ok.mp checked
  obtain ⟨closed,checked⟩ := refuse_bind_eq_ok.mp checked
  obtain ⟨_,checked⟩ := refuse_bind_eq_ok.mp checked
  obtain ⟨pieces,clean,found,source⟩ := scan_reads path ⟨[],none⟩ scan scanned (by simpa using closed) (by simp)
  rw [unread_none rfl] at source
  rw [List.nil_append] at found
  split at checked
  next => cases checked
  next missing =>
    split at checked
    next => cases checked
    next extra =>
      rw [smallest_eq_none,List.filter_eq_nil_iff] at missing extra
      refine ⟨pieces,clean,source,fun name => ?_⟩
      rw [← found]
      constructor
      · intro held
        have declared := missing name held
        simpa [pathParameterNames,and_assoc] using declared
      · rintro ⟨p,member,location,rfl⟩
        have used := extra p.name (by
          simp only [pathParameterNames,List.mem_map,List.mem_filter,decide_eq_true_eq]
          exact ⟨p,⟨member,location⟩,rfl⟩)
        simpa using used

end ToolLayer.OpenApi
