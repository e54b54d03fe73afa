import ToolLayer.Python.Exceptions
import ToolLayer.Kit.Result

/-! `str.encode("utf-8")`: lone surrogates are refused, and no two texts share an
encoding. -/
namespace Python
open Kit Kit.Result

abbrev Byte := Fin 256
abbrev Bytes := List Byte

instance bytesNonzero : @NeZero Nat Zero.ofOfNat0 256 := ⟨by decide⟩

theorem bytes_le_codePoints : 256 ≤ 0x110000 := by decide

namespace Utf8

def byte (n : Nat) : Byte := Fin.ofNat 256 n

def encodePoint (c : CodePoint) : Bytes :=
  let n := c.val
  if n < 0x80 then [byte n]
  else if n < 0x800 then [byte (0xC0 + n / 64),byte (0x80 + n % 64)]
  else if n < 0x10000 then [byte (0xE0 + n / 4096),byte (0x80 + n / 64 % 64),byte (0x80 + n % 64)]
  else [byte (0xF0 + n / 262144),byte (0x80 + n / 4096 % 64),byte (0x80 + n / 64 % 64),byte (0x80 + n % 64)]

def bytes (s : Str) : Bytes := s.flatMap encodePoint

/-- `s.encode("utf-8")`. -/
def encode {E : Type} (s : Str) : Except (Exc E) Bytes :=
  if s.scalar then .ok (bytes s) else .error .unicodeEncodeError

theorem encode_eq_ok {E : Type} {s : Str} {out : Bytes} :
    (encode s : Except (Exc E) Bytes) = .ok out ↔ s.scalar = true ∧ bytes s = out := by
  unfold encode
  split
  next readable => simp [readable]
  next refused => simp [refused]

theorem encodePoint_ascii {c : CodePoint} (ascii : c.val < 0x80) : encodePoint c = [byte c.val] := by
  simp [encodePoint,ascii]

theorem val_byte {n : Nat} (small : n < 256) : (byte n).val = n := by
  simp [byte,Fin.ofNat,Nat.mod_eq_of_lt small]

/-- Beyond ASCII only bytes with the high bit set are written. -/
theorem high_of_mem_encodePoint {c : CodePoint} {b : Byte} (beyond : 0x80 ≤ c.val)
    (member : b ∈ encodePoint c) : 0x80 ≤ b.val := by
  have bound := c.isLt
  unfold encodePoint at member
  simp only [if_neg (show ¬ c.val < 0x80 by omega)] at member
  split at member
  · simp only [List.mem_cons,List.not_mem_nil,or_false] at member
    rcases member with rfl | rfl
    all_goals (rw [val_byte (by omega)]; omega)
  · split at member
    · simp only [List.mem_cons,List.not_mem_nil,or_false] at member
      rcases member with rfl | rfl | rfl
      all_goals (rw [val_byte (by omega)]; omega)
    · simp only [List.mem_cons,List.not_mem_nil,or_false] at member
      rcases member with rfl | rfl | rfl | rfl
      all_goals (rw [val_byte (by omega)]; omega)

/-- Reads one encoded code point off the front, trusting the lead byte. -/
def readPoint : Bytes → Option (Nat × Bytes)
  | [] => none
  | a::rest =>
    if a.val < 0x80 then some (a.val,rest)
    else if a.val < 0xE0 then match rest with
      | b::tail => some ((a.val - 0xC0) * 64 + (b.val - 0x80),tail)
      | _ => none
    else if a.val < 0xF0 then match rest with
      | b::c::tail => some ((a.val - 0xE0) * 4096 + (b.val - 0x80) * 64 + (c.val - 0x80),tail)
      | _ => none
    else match rest with
      | b::c::d::tail =>
        some ((a.val - 0xF0) * 262144 + (b.val - 0x80) * 4096 + (c.val - 0x80) * 64 + (d.val - 0x80),tail)
      | _ => none

theorem readPoint_encodePoint (c : CodePoint) (rest : Bytes) :
    readPoint (encodePoint c ++ rest) = some (c.val,rest) := by
  have bound := c.isLt
  unfold encodePoint
  simp only
  split
  next one =>
    simp only [List.cons_append,List.nil_append,readPoint]
    rw [val_byte (by omega),if_pos one]
  next more =>
    split
    next two =>
      simp only [List.cons_append,List.nil_append,readPoint]
      rw [val_byte (by omega),val_byte (by omega),if_neg (by omega),if_pos (by omega)]
      simp only [Option.some.injEq,Prod.mk.injEq,and_true]
      omega
    next more =>
      split
      next three =>
        simp only [List.cons_append,List.nil_append,readPoint]
        rw [val_byte (by omega),val_byte (by omega),val_byte (by omega),if_neg (by omega),
          if_neg (by omega),if_pos (by omega)]
        simp only [Option.some.injEq,Prod.mk.injEq,and_true]
        omega
      next four =>
        simp only [List.cons_append,List.nil_append,readPoint]
        rw [val_byte (by omega),val_byte (by omega),val_byte (by omega),val_byte (by omega),
          if_neg (by omega),if_neg (by omega),if_neg (by omega)]
        simp only [Option.some.injEq,Prod.mk.injEq,and_true]
        omega

/-- Encoded code points can be told apart wherever they start. -/
theorem encodePoint_cancel {c d : CodePoint} {s t : Bytes}
    (equal : encodePoint c ++ s = encodePoint d ++ t) : c = d ∧ s = t := by
  have read := congrArg readPoint equal
  rw [readPoint_encodePoint,readPoint_encodePoint] at read
  simp only [Option.some.injEq,Prod.mk.injEq] at read
  exact ⟨Fin.ext read.1,read.2⟩

theorem encodePoint_ne_nil (c : CodePoint) : encodePoint c ≠ [] := by
  unfold encodePoint
  simp only
  split
  · simp
  · split
    · simp
    · split <;> simp

theorem bytes_injective : Function.Injective bytes := by
  intro s t equal
  induction s generalizing t with
  | nil =>
    cases t with
    | nil => rfl
    | cons d t => simp [bytes,encodePoint_ne_nil] at equal
  | cons c s ih =>
    cases t with
    | nil => simp [bytes,encodePoint_ne_nil] at equal
    | cons d t =>
      obtain ⟨same,tail⟩ := encodePoint_cancel (by simpa only [bytes,List.flatMap_cons] using equal)
      rw [same,ih tail]

/-- Two texts with one encoding are one text. -/
theorem encode_inj {E : Type} {s t : Str} {out : Bytes} (first : (encode s : Except (Exc E) Bytes) = .ok out)
    (second : (encode t : Except (Exc E) Bytes) = .ok out) : s = t :=
  bytes_injective ((encode_eq_ok.mp first).2.trans (encode_eq_ok.mp second).2.symm)

section Decode

/-- A continuation byte, within the range its lead byte leaves it. -/
def continues (low high : Nat) (b : Byte) : Bool := decide (low ≤ b.val) && decide (b.val ≤ high)

/-- The ranges of the continuation bytes a lead byte calls for; none for a byte that leads nothing. -/
def continuations (lead : Byte) : Option (List (Nat × Nat)) :=
  let n := lead.val
  if n < 0x80 then some []
  else if n < 0xC2 then none
  else if n < 0xE0 then some [(0x80,0xBF)]
  else if n = 0xE0 then some [(0xA0,0xBF),(0x80,0xBF)]
  else if n = 0xED then some [(0x80,0x9F),(0x80,0xBF)]
  else if n < 0xF0 then some [(0x80,0xBF),(0x80,0xBF)]
  else if n = 0xF0 then some [(0x90,0xBF),(0x80,0xBF),(0x80,0xBF)]
  else if n < 0xF4 then some [(0x80,0xBF),(0x80,0xBF),(0x80,0xBF)]
  else if n = 0xF4 then some [(0x80,0x8F),(0x80,0xBF),(0x80,0xBF)]
  else none

/-- How many of the bytes are in the ranges called for, in order. -/
def matched : List (Nat × Nat) → Bytes → Nat
  | (low,high)::ranges,b::rest => if continues low high b then matched ranges rest + 1 else 0
  | _,_ => 0

/-- One code point off the front, or the length of the ill-formed piece that stands there. -/
def decodePoint (lead : Byte) (rest : Bytes) : CodePoint × Nat ⊕ Nat :=
  match continuations lead with
  | none => .inr 1
  | some ranges =>
    let found := matched ranges rest
    if found = ranges.length then
      match readPoint (lead::rest) with
      | some (n,_) => .inl (Fin.ofNat _ n,found + 1)
      | none => .inr (found + 1)
    else .inr (found + 1)

/-- The code points, with `none` for each ill-formed piece; `skip` counts the bytes still to
be passed over. -/
def decodeFrom : Nat → Bytes → List (Option CodePoint)
  | _,[] => []
  | skip + 1,_::rest => decodeFrom skip rest
  | 0,lead::rest =>
    match decodePoint lead rest with
    | .inl (c,length) => some c :: decodeFrom (length - 1) rest
    | .inr length => none :: decodeFrom (length - 1) rest

/-- `b.decode("utf-8")`; `none` is `UnicodeDecodeError`. -/
def decode (b : Bytes) : Option Str := (decodeFrom 0 b).mapM id

def replacementCharacter : CodePoint := Fin.ofNat _ 0xFFFD

/-- `b.decode("utf-8", errors="replace")`. -/
def decodeReplace (b : Bytes) : Str := (decodeFrom 0 b).map (fun c => c.getD replacementCharacter)

example : decodeReplace [0x61,0xE2,0x82,0x28] = [0x61,replacementCharacter,0x28] := by decide +kernel

end Decode

end Utf8

end Python
