import Mathlib.Tactic.IntervalCases
import ToolLayer.Python.Utf8
import ToolLayer.Python.Unicode

/-! Percent-encoding as `urllib.parse` does it. -/
namespace Python.Url
open Kit Kit.Result

/-- Letters, digits and `_.-~`, which `quote` always leaves alone. -/
def unreserved (c : CodePoint) : Bool :=
  c.isAlnum || c == '_' || c == '.' || c == '-' || c == '~'

def upperHex (n : Nat) : CodePoint := if n < 10 then Fin.ofNat _ (0x30 + n) else Fin.ofNat _ (0x37 + n)

def quoteByte (b : Byte) : Str :=
  let c : CodePoint := b.castLE bytes_le_codePoints
  if unreserved c then [c] else [CodePoint.ofChar '%',upperHex (b.val / 16),upperHex (b.val % 16)]

def quoteBytes (data : Bytes) : Str := data.flatMap quoteByte

/-- `quote(s, safe="")`. -/
def quote {E : Type} (s : Str) : Except (Exc E) Str := do
  let data ← Utf8.encode s
  return quoteBytes data

def plusByte (b : Byte) : Str := if b.val = 0x20 then [CodePoint.ofChar '+'] else quoteByte b

/-- `quote_plus(s)`. -/
def quotePlus {E : Type} (s : Str) : Except (Exc E) Str := do
  let data ← Utf8.encode s
  return data.flatMap plusByte

/-- `urlencode(pairs, doseq=False)`. -/
def urlencode {E : Type} (pairs : List (Str × Str)) : Except (Exc E) Str := do
  let fields ← each (fun pair => do
    let key ← quotePlus pair.1
    let value ← quotePlus pair.2
    return key ++ [CodePoint.ofChar '='] ++ value) pairs
  return Str.join "&" fields

def quotePoint (c : CodePoint) : Str := quoteBytes (Utf8.encodePoint c)

theorem quoteBytes_bytes (s : Str) : quoteBytes (Utf8.bytes s) = s.flatMap quotePoint := by
  rw [quoteBytes,Utf8.bytes,List.flatMap_assoc]
  rfl

theorem quote_eq_ok {E : Type} {s out : Str} :
    (quote s : Except (Exc E) Str) = .ok out ↔ s.scalar = true ∧ s.flatMap quotePoint = out := by
  unfold quote
  rw [bind_eq_ok]
  constructor
  · rintro ⟨data,encoded,written⟩
    obtain ⟨readable,rfl⟩ := Utf8.encode_eq_ok.mp encoded
    rw [quoteBytes_bytes,pure_eq_ok,Except.ok.injEq] at written
    exact ⟨readable,written⟩
  · rintro ⟨readable,rfl⟩
    refine ⟨Utf8.bytes s,Utf8.encode_eq_ok.mpr ⟨readable,rfl⟩,?_⟩
    rw [quoteBytes_bytes,pure_eq_ok]

theorem unreserved_ascii {c : CodePoint} (kept : unreserved c = true) : c.val < 0x80 := by
  simp only [unreserved,CodePoint.isAlnum,CodePoint.isAlpha,CodePoint.isUpper,CodePoint.isLower,
    CodePoint.isDigit,CodePoint.between,Bool.or_eq_true,Bool.and_eq_true,decide_eq_true_eq,
    beq_iff_eq] at kept
  rcases kept with (((kept | rfl) | rfl) | rfl) | rfl
  · omega
  all_goals decide

theorem quotePoint_unreserved {c : CodePoint} (kept : unreserved c = true) : quotePoint c = [c] := by
  have ascii := unreserved_ascii kept
  have same : (Utf8.byte c.val).castLE bytes_le_codePoints = c := Fin.ext (Utf8.val_byte (by omega))
  rw [quotePoint,Utf8.encodePoint_ascii ascii,quoteBytes,List.flatMap_singleton,quoteByte]
  simp only [same,if_pos kept]

theorem quoteByte_high {b : Byte} (high : 0x80 ≤ b.val) :
    quoteByte b = [CodePoint.ofChar '%',upperHex (b.val / 16),upperHex (b.val % 16)] := by
  rw [quoteByte,if_neg]
  intro kept
  have low : b.val < 0x80 := unreserved_ascii kept
  omega

/-- What is not left alone starts with a percent sign. -/
theorem quotePoint_reserved {c : CodePoint} (changed : unreserved c = false) :
    ∃ rest, quotePoint c = CodePoint.ofChar '%' :: rest := by
  by_cases ascii : c.val < 0x80
  · have same : (Utf8.byte c.val).castLE bytes_le_codePoints = c := Fin.ext (Utf8.val_byte (by omega))
    rw [quotePoint,Utf8.encodePoint_ascii ascii,quoteBytes,List.flatMap_singleton,quoteByte]
    simp only [same,changed,Bool.false_eq_true,if_false]
    exact ⟨_,rfl⟩
  · obtain ⟨b,rest,shape⟩ := List.exists_cons_of_ne_nil (Utf8.encodePoint_ne_nil c)
    have first : b ∈ Utf8.encodePoint c := by simp [shape]
    have high : 0x80 ≤ b.val := Utf8.high_of_mem_encodePoint (by omega) first
    rw [quotePoint,shape,quoteBytes,List.flatMap_cons,quoteByte_high high]
    exact ⟨_,rfl⟩

theorem upperHex_unreserved {n : Nat} (digit : n < 16) : unreserved (upperHex n) = true := by
  interval_cases n <;> decide

/-- Nothing but unreserved characters and percent signs is written. -/
theorem quotePoint_alphabet {c d : CodePoint} (member : d ∈ quotePoint c) :
    unreserved d = true ∨ d = '%' := by
  obtain ⟨b,_,written⟩ := List.mem_flatMap.mp member
  have bound := b.isLt
  unfold quoteByte at written
  simp only at written
  split at written
  next kept =>
    rw [List.mem_singleton.mp written]
    exact Or.inl kept
  next changed =>
    simp only [List.mem_cons,List.not_mem_nil,or_false] at written
    rcases written with rfl | rfl | rfl
    · exact Or.inr rfl
    · exact Or.inl (upperHex_unreserved (by omega))
    · exact Or.inl (upperHex_unreserved (by omega))

end Python.Url
