import ToolLayer.Python.JsonParse
import ToolLayer.Python.Utf8

/-! Bytes as text: ASCII, and the encodings `json.loads` detects in the bytes it is given. -/
namespace Python

namespace Ascii

/-- `s.encode("ascii")`. -/
def encode {E : Type} (s : Str) : Except (Exc E) Bytes :=
  if s.all CodePoint.isAscii then .ok (Utf8.bytes s) else .error .unicodeEncodeError

end Ascii

namespace Json

inductive Encoding where
  | utf8
  | utf8Sig
  | utf16 (big : Bool)
  | utf32 (big : Bool)
  deriving DecidableEq

/-- The encoding, and how many bytes its mark takes. -/
def mark? (b : Bytes) : Option (Encoding × Nat) :=
  if [0x00,0x00,0xFE,0xFF].isPrefixOf b then some (.utf32 true,4)
  else if [0xFF,0xFE,0x00,0x00].isPrefixOf b then some (.utf32 false,4)
  else if [0xFE,0xFF].isPrefixOf b then some (.utf16 true,2)
  else if [0xFF,0xFE].isPrefixOf b then some (.utf16 false,2)
  else if [0xEF,0xBB,0xBF].isPrefixOf b then some (.utf8Sig,3)
  else none

/-- Without a mark, the zero bytes tell: JSON starts with ASCII. -/
def unmarked : Bytes → Encoding
  | a::b::c::d::_ =>
    if a.val = 0 then (if b.val = 0 then .utf32 true else .utf16 true)
    else if b.val = 0 then (if c.val = 0 ∧ d.val = 0 then .utf32 false else .utf16 false)
    else .utf8
  | [a,b] => if a.val = 0 then .utf16 true else if b.val = 0 then .utf16 false else .utf8
  | _ => .utf8

/-- `detect_encoding`. -/
def detectEncoding (b : Bytes) : Encoding × Nat := (mark? b).getD (unmarked b,0)

/-- With `surrogatepass`, surrogates are read as the three bytes they would take. -/
def continuations (lead : Byte) : Option (List (Nat × Nat)) :=
  if lead.val = 0xED then some [(0x80,0xBF),(0x80,0xBF)] else Utf8.continuations lead

/-- `skip` counts the bytes of the point before that are still to be passed over. -/
def decodeUtf8 : Nat → Bytes → Option Str
  | _,[] => some []
  | skip + 1,_::rest => decodeUtf8 skip rest
  | 0,lead::rest =>
    match continuations lead,Utf8.readPoint (lead::rest) with
    | some ranges,some (n,_) =>
      if Utf8.matched ranges rest = ranges.length then
        (decodeUtf8 ranges.length rest).map (Fin.ofNat _ n :: ·)
      else none
    | _,_ => none

def decodeUtf16 (big : Bool) : Bytes → Option Str
  | [] => some []
  | a::b::rest =>
    (decodeUtf16 big rest).map (Fin.ofNat _ (if big then 256 * a.val + b.val else 256 * b.val + a.val) :: ·)
  | _ => none

def decodeUtf32 (big : Bool) : Bytes → Option Str
  | [] => some []
  | a::b::c::d::rest =>
    let n := if big then 16777216 * a.val + 65536 * b.val + 256 * c.val + d.val
      else 16777216 * d.val + 65536 * c.val + 256 * b.val + a.val
    if n < 0x110000 then (decodeUtf32 big rest).map (Fin.ofNat _ n :: ·) else none
  | _ => none

/-- `b.decode(detect_encoding(b), "surrogatepass")`; `none` is `UnicodeDecodeError`. -/
def decode (b : Bytes) : Option Str :=
  let (encoding,length) := detectEncoding b
  let body := b.drop length
  match encoding with
  | .utf8 => decodeUtf8 0 body
  | .utf8Sig => decodeUtf8 0 body
  | .utf16 big => (decodeUtf16 big body).map Str.paired
  | .utf32 big => decodeUtf32 big body

/-- `json.loads` of bytes. -/
def loadsBytes {E : Type} (h : Hooks) (b : Bytes) : Except (Exc E) Value :=
  match decode b with
  | none => .error .valueError
  | some s => loads h s

section Ascii

theorem decodeUtf8_ascii {s : Str} (ascii : s.all CodePoint.isAscii = true) : decodeUtf8 0 (Utf8.bytes s) = some s := by
  induction s with
  | nil => rfl
  | cons c s ih =>
    rw [List.all_cons,Bool.and_eq_true] at ascii
    have small : c.val < 0x80 := of_decide_eq_true ascii.1
    have value : (Utf8.byte c.val).val = c.val := Utf8.val_byte (by omega)
    have ranges : continuations (Utf8.byte c.val) = some [] := by
      rw [continuations,if_neg (by omega),Utf8.continuations.eq_def]
      simp only [value,if_pos small]
    have point : Utf8.readPoint (Utf8.byte c.val :: Utf8.bytes s) = some (c.val,Utf8.bytes s) := by
      rw [Utf8.readPoint.eq_def]
      simp only [value,if_pos small]
    have same : (Fin.ofNat 0x110000 c.val) = c := Fin.ext (Nat.mod_eq_of_lt c.isLt)
    rw [Utf8.bytes,List.flatMap_cons,Utf8.encodePoint_ascii small,List.singleton_append,← Utf8.bytes,decodeUtf8,ranges,
      point]
    simp only [same]
    rw [if_pos (by cases Utf8.bytes s <;> rfl),List.length_nil,ih ascii.2]
    rfl

/-- ASCII without a zero byte is read as the UTF-8 it is. -/
theorem decode_ascii {s : Str} (ascii : s.all CodePoint.isAscii = true) (filled : ∀ c ∈ s, c.val ≠ 0) :
    decode (Utf8.bytes s) = some s := by
  have bytes : ∀ b ∈ Utf8.bytes s, b.val ≠ 0 ∧ b.val < 0x80 := by
    intro b member
    obtain ⟨c,inside,written⟩ := List.mem_flatMap.mp member
    have small : c.val < 0x80 := of_decide_eq_true (List.all_eq_true.mp ascii c inside)
    rw [Utf8.encodePoint_ascii small,List.mem_singleton] at written
    rw [written,Utf8.val_byte (by omega)]
    exact ⟨filled c inside,small⟩
  have unmarked_ : ∀ b : Bytes, (∀ x ∈ b, x.val ≠ 0 ∧ x.val < 0x80) → detectEncoding b = (.utf8,0) := by
    intro b low
    have plain : mark? b = none := by
      cases b with
      | nil => rfl
      | cons x rest =>
        obtain ⟨nonzero,small⟩ := low x List.mem_cons_self
        have first : ∀ y : Byte, (y.val = 0 ∨ 0x80 ≤ y.val) → (y == x) = false := by
          intro y range
          refine beq_eq_false_iff_ne.mpr (fun same => ?_)
          rw [same] at range
          omega
        simp only [mark?,List.isPrefixOf,first 0x00 (by decide),first 0xFF (by decide),first 0xFE (by decide),
          first 0xEF (by decide),Bool.false_and]
        rfl
    have quiet : unmarked b = .utf8 := by
      unfold unmarked
      split
      next x y z w _ =>
        rw [if_neg (low x (by simp)).1,if_neg (low y (by simp)).1]
      next x y =>
        rw [if_neg (low x (by simp)).1,if_neg (low y (by simp)).1]
      next => rfl
    rw [detectEncoding,plain,quiet]
    rfl
  rw [decode,unmarked_ _ bytes]
  exact decodeUtf8_ascii ascii

end Ascii

end Json

end Python
