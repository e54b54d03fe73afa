import ToolLayer.Python.Utf8

/-! `base64.urlsafe_b64encode` and the lenient `base64.urlsafe_b64decode`. -/
namespace Python.Base64

def digit (n : Nat) : CodePoint :=
  if n < 26 then Fin.ofNat _ (0x41 + n)
  else if n < 52 then Fin.ofNat _ (0x61 + (n - 26))
  else if n < 62 then Fin.ofNat _ (0x30 + (n - 52))
  else if n = 62 then '-' else '_'

def digitValue (c : CodePoint) : Option Nat :=
  if c.isUpper then some (c.val - 0x41)
  else if c.isLower then some (c.val - 0x61 + 26)
  else if c.isDigit then some (c.val - 0x30 + 52)
  else if c = '-' ∨ c = '+' then some 62
  else if c = '_' ∨ c = '/' then some 63
  else none

/-- The digits of an encoding, without its padding. -/
def digits : Bytes → Str
  | a::b::c::rest =>
    digit (a.val / 4) :: digit (a.val % 4 * 16 + b.val / 16) :: digit (b.val % 16 * 4 + c.val / 64) ::
      digit (c.val % 64) :: digits rest
  | [a,b] => [digit (a.val / 4),digit (a.val % 4 * 16 + b.val / 16),digit (b.val % 16 * 4)]
  | [a] => [digit (a.val / 4),digit (a.val % 4 * 16)]
  | [] => []

def padding (length : Nat) : Str := List.replicate ((4 - length % 4) % 4) '='

def urlsafeEncode (raw : Bytes) : Str := digits raw ++ padding (digits raw).length

/-- `a2b_base64`: characters outside the alphabet are passed over, a complete padding
ends the text, and an unfinished quad without one is an error. -/
def scan (quad left pads : Nat) : Str → Option Bytes
  | [] => if quad = 0 then some [] else none
  | c::rest =>
    if c = '=' then
      if 2 ≤ quad then
        if 4 ≤ quad + (pads + 1) then some [] else scan quad left (pads + 1) rest
      else scan quad left pads rest
    else match digitValue c with
      | none => scan quad left pads rest
      | some v =>
        match quad with
        | 0 => scan 1 v 0 rest
        | 1 => (scan 2 (v % 16) 0 rest).map (Utf8.byte (left * 4 + v / 16) :: ·)
        | 2 => (scan 3 (v % 4) 0 rest).map (Utf8.byte (left * 16 + v / 4) :: ·)
        | _ => (scan 0 0 0 rest).map (Utf8.byte (left * 64 + v) :: ·)

/-- Decoding of a text; one that is not ASCII cannot be read either. -/
def urlsafeDecode (s : Str) : Option Bytes := if s.all CodePoint.isAscii then scan 0 0 0 s else none

theorem digitValue_digit {n : Nat} (small : n < 64) : digitValue (digit n) = some n ∧ digit n ≠ '=' := by
  revert n
  decide

theorem scan_digit {n : Nat} (small : n < 64) (quad left pads : Nat) (rest : Str) :
    scan quad left pads (digit n :: rest) = match quad with
      | 0 => scan 1 n 0 rest
      | 1 => (scan 2 (n % 16) 0 rest).map (Utf8.byte (left * 4 + n / 16) :: ·)
      | 2 => (scan 3 (n % 4) 0 rest).map (Utf8.byte (left * 16 + n / 4) :: ·)
      | _ => (scan 0 0 0 rest).map (Utf8.byte (left * 64 + n) :: ·) := by
  obtain ⟨value,other⟩ := digitValue_digit small
  rw [scan,if_neg other,value]

theorem byte_eq {b : Byte} {n : Nat} (same : n = b.val) : Utf8.byte n = b := by
  apply Fin.ext
  rw [same]
  exact Nat.mod_eq_of_lt b.isLt

/-- A padded encoding decodes to what was encoded. -/
theorem scan_digits (raw : Bytes) (left pads : Nat) :
    scan 0 left pads (digits raw ++ padding (digits raw).length) = some raw := by
  fun_induction digits raw generalizing left pads with
  | case1 a b c rest ih =>
    have ha := a.isLt
    have hb := b.isLt
    have hc := c.isLt
    have same : padding (digit (a.val / 4) :: digit (a.val % 4 * 16 + b.val / 16) ::
        digit (b.val % 16 * 4 + c.val / 64) :: digit (c.val % 64) :: digits rest).length =
        padding (digits rest).length := by
      simp [padding,Nat.add_assoc]
    rw [same,List.cons_append,List.cons_append,List.cons_append,List.cons_append]
    rw [scan_digit (by omega)]
    simp only
    rw [scan_digit (by omega)]
    simp only
    rw [scan_digit (by omega)]
    simp only
    rw [scan_digit (by omega)]
    simp only
    rw [ih,byte_eq (b := a) (by omega),byte_eq (b := b) (by omega),byte_eq (b := c) (by omega)]
    rfl
  | case2 a b =>
    have ha := a.isLt
    have hb := b.isLt
    simp only [List.cons_append,List.nil_append]
    rw [scan_digit (by omega)]
    simp only
    rw [scan_digit (by omega)]
    simp only
    rw [scan_digit (by omega)]
    simp only
    rw [byte_eq (b := a) (by omega),byte_eq (b := b) (by omega)]
    rfl
  | case3 a =>
    have ha := a.isLt
    simp only [List.cons_append,List.nil_append]
    rw [scan_digit (by omega)]
    simp only
    rw [scan_digit (by omega)]
    simp only
    rw [byte_eq (b := a) (by omega)]
    rfl
  | case4 => rfl

/-- A point of the URL-safe alphabet. -/
def isUrlsafe (c : CodePoint) : Bool := c.isAlnum || c == '_' || c == '-'

theorem isUrlsafe_digit (n : Nat) (small : n < 64) : isUrlsafe (digit n) = true := by
  revert n
  decide

theorem isUrlsafe_of_mem_digits (raw : Bytes) : ∀ c ∈ digits raw, isUrlsafe c = true := by
  fun_induction digits raw with
  | case1 a b c rest ih =>
    have ha := a.isLt
    have hb := b.isLt
    have hc := c.isLt
    simp only [List.forall_mem_cons]
    exact ⟨isUrlsafe_digit _ (by omega),isUrlsafe_digit _ (by omega),isUrlsafe_digit _ (by omega),
      isUrlsafe_digit _ (by omega),ih⟩
  | case2 a b =>
    have ha := a.isLt
    have hb := b.isLt
    simp only [List.forall_mem_cons]
    exact ⟨isUrlsafe_digit _ (by omega),isUrlsafe_digit _ (by omega),isUrlsafe_digit _ (by omega),by simp⟩
  | case3 a =>
    have ha := a.isLt
    simp only [List.forall_mem_cons]
    exact ⟨isUrlsafe_digit _ (by omega),isUrlsafe_digit _ (by omega),by simp⟩
  | case4 => simp

theorem length_digits (raw : Bytes) : (digits raw).length = (4 * raw.length + 2) / 3 := by
  fun_induction digits raw with
  | case1 a b c rest ih =>
    simp only [List.length_cons,ih]
    omega
  | case2 a b => simp
  | case3 a => simp
  | case4 => rfl

end Python.Base64
