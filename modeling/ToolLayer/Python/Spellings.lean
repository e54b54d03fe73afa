import ToolLayer.Python.Base64

/-! The spellings of a base64url text: the one that encoding writes, and all those
that lenient decoding reads. -/
namespace Python.Base64

/-- A digit of the URL-safe alphabet whose value is a multiple of `unit`. -/
def urlsafeDigit (unit : Nat) (c : CodePoint) : Bool :=
  isUrlsafe c && (match digitValue c with | some v => decide (v % unit = 0) | none => false)

/-- Whole groups of four digits, and a last group whose spare bits are zero. -/
def canonical : Str → Bool
  | a::b::c::d::rest => isUrlsafe a && isUrlsafe b && isUrlsafe c && isUrlsafe d && canonical rest
  | [a,b,c] => isUrlsafe a && isUrlsafe b && urlsafeDigit 4 c
  | [a,b] => isUrlsafe a && urlsafeDigit 16 b
  | [_] => false
  | [] => true

/-- Whether decoding ends between two groups; it passes over anything outside the alphabet. -/
def closes (quad pads : Nat) : Str → Bool
  | [] => quad == 0
  | c::rest =>
    if c = '=' then
      if 2 ≤ quad then decide (4 ≤ quad + (pads + 1)) || closes quad (pads + 1) rest else closes quad pads rest
    else if (digitValue c).isNone then closes quad pads rest
    else if quad < 3 then closes (quad + 1) 0 rest
    else closes 0 0 rest

/-- A text that lenient decoding reads once it is padded. -/
def lenient (s : Str) : Bool := s.all CodePoint.isAscii && closes 0 0 (s ++ padding s.length)

/-- One character of a text replaced by another. -/
def Respelled (s t : Str) : Prop := ∃ before c d after, c ≠ d ∧ s = before ++ c::after ∧ t = before ++ d::after

theorem Respelled.cons {s t : Str} (changed : Respelled s t) (x : CodePoint) : Respelled (x::s) (x::t) := by
  obtain ⟨before,c,d,after,other,rfl,rfl⟩ := changed
  exact ⟨x::before,c,d,after,other,rfl,rfl⟩

theorem Respelled.length {s t : Str} (changed : Respelled s t) : t.length = s.length := by
  obtain ⟨before,c,d,after,other,rfl,rfl⟩ := changed
  simp

theorem Respelled.ne {s t : Str} (changed : Respelled s t) : t ≠ s := by
  obtain ⟨before,c,d,after,other,rfl,rfl⟩ := changed
  intro same
  exact other (List.cons.inj (List.append_cancel_left same)).1.symm

end Python.Base64
