import ToolLayer.Python.Distinct
import ToolLayer.Python.JsonText

/-! `json.loads` of a text, and what it reads back from what `json.dumps` wrote. -/
namespace Python.Json
open Kit Kit.Delimited

/-- `parse_float` and `parse_constant`; strict JSON has no constants. -/
structure Hooks where
  float : Str → PyFloat
  constant : Str → Option Value

section Scanner

def isBlank (c : CodePoint) : Bool := c = ' ' || c = '\t' || c = '\n' || c = '\r'

def skip (s : Str) : Str := s.dropWhile isBlank

def hexDigit? (c : CodePoint) : Option Nat :=
  if c.isDigit then some (c.val - 0x30)
  else if c.between 0x61 0x66 then some (c.val - 0x57)
  else if c.between 0x41 0x46 then some (c.val - 0x37)
  else none

/-- `_decode_uXXXX`. -/
def scanHex : Str → Option (Nat × Str)
  | a::b::c::d::rest =>
    match hexDigit? a,hexDigit? b,hexDigit? c,hexDigit? d with
    | some a,some b,some c,some d => some (4096 * a + 256 * b + 16 * c + d,rest)
    | _,_,_,_ => none
  | _ => none

/-- A second `\u` escape, when it is the low half of a pair. -/
def scanLow : Str → Option (CodePoint × Str)
  | a::b::rest =>
    if a = '\\' ∧ b = 'u' then
      match scanHex rest with
      | some (unit,rest) =>
        if 0xDC00 ≤ unit ∧ unit ≤ 0xDFFF then some (Fin.ofNat _ unit,rest) else none
      | none => none
    else none
  | _ => none

def scanUnicode (s : Str) : Option (CodePoint × Str) :=
  match scanHex s with
  | none => none
  | some (unit,rest) =>
    if 0xD800 ≤ unit ∧ unit ≤ 0xDBFF then
      match scanLow rest with
      | some (low,after) => some (Str.pair (Fin.ofNat _ unit) low,after)
      | none => some (Fin.ofNat _ unit,rest)
    else some (Fin.ofNat _ unit,rest)

def unescape (c : CodePoint) : Option CodePoint :=
  if c = '"' ∨ c = '\\' ∨ c = '/' then some c
  else if c = 'b' then some (Fin.ofNat _ 0x08)
  else if c = 'f' then some (Fin.ofNat _ 0x0C)
  else if c = 'n' then some (CodePoint.ofChar '\n')
  else if c = 'r' then some (CodePoint.ofChar '\r')
  else if c = 't' then some (CodePoint.ofChar '\t')
  else none

/-- One code point of a string literal; control characters have to be escaped. -/
def scanPoint : Str → Option (CodePoint × Str)
  | [] => none
  | c::rest =>
    if c = '\\' then
      match rest with
      | [] => none
      | d::rest => if d = 'u' then scanUnicode rest else (unescape d).map (fun point => (point,rest))
    else if c.val < 0x20 then none
    else some (c,rest)

def scanPoints : Nat → Str → Option (Str × Str)
  | 0,_ => none
  | _,[] => none
  | fuel + 1,c::rest =>
    if c = '"' then some ([],rest)
    else match scanPoint (c::rest) with
      | none => none
      | some (point,rest) => (scanPoints fuel rest).map (fun read => (point::read.1,read.2))

/-- `scanstring`, after the opening quote: each code point takes at least one of the text. -/
def scanString (s : Str) : Option (Str × Str) := scanPoints s.length s

def scanWhole : Str → Option (Str × Str)
  | [] => none
  | c::rest =>
    if c = '0' then some ([c],rest)
    else if c.isDigit then some (c :: rest.takeWhile CodePoint.isDigit,rest.dropWhile CodePoint.isDigit)
    else none

/-- A point with digits behind it. -/
def scanFraction : Str → Str × Str
  | c::d::rest =>
    if c = '.' ∧ d.isDigit = true then
      (c::d::rest.takeWhile CodePoint.isDigit,rest.dropWhile CodePoint.isDigit)
    else ([],c::d::rest)
  | s => ([],s)

/-- An exponent, when digits follow its letter and sign. -/
def scanPower : Str → Str × Str
  | [] => ([],[])
  | c::rest =>
    if c = 'e' ∨ c = 'E' then
      let (sign,digits) := match rest with
        | d::more => if d = '+' ∨ d = '-' then ([d],more) else ([],rest)
        | [] => ([],[])
      let power := digits.takeWhile CodePoint.isDigit
      if power.isEmpty then ([],c::rest) else (c::sign ++ power,digits.dropWhile CodePoint.isDigit)
    else ([],c::rest)

/-- `_match_number`: `int()` refuses too many digits. -/
def scanNumber (h : Hooks) (s : Str) : Option (Value × Str) :=
  let (negative,body) := Str.stripSign s
  match scanWhole body with
  | none => none
  | some (whole,rest) =>
    let (fraction,rest) := scanFraction rest
    let (power,rest) := scanPower rest
    if fraction.isEmpty && power.isEmpty then
      let n : Int := Str.digitsValue whole
      if whole.length ≤ Decimal.maxDigits then some (.int (if negative then -n else n),rest) else none
    else
      let sign : Str := if negative then "-" else []
      some (.float (h.float (sign ++ whole ++ fraction ++ power)),rest)

def word (s : Str) (text : String) : Option Str :=
  if Str.startsWith s text then some (s.drop (Str.lit text).length) else none

/-- Everything but strings, arrays and objects. -/
def scanLeaf (h : Hooks) (s : Str) : Option (Value × Str) :=
  match word s "null",word s "true",word s "false" with
  | some rest,_,_ => some (.null,rest)
  | _,some rest,_ => some (.bool true,rest)
  | _,_,some rest => some (.bool false,rest)
  | none,none,none =>
    match word s "NaN",word s "Infinity",word s "-Infinity" with
    | some rest,_,_ => (h.constant "NaN").map (fun v => (v,rest))
    | _,some rest,_ => (h.constant "Infinity").map (fun v => (v,rest))
    | _,_,some rest => (h.constant "-Infinity").map (fun v => (v,rest))
    | none,none,none => scanNumber h s

/-- `dict` of pairs: a later value replaces an earlier one of the same key. -/
def ofPairs (pairs : List (Str × Value)) : Dict := pairs.foldl (fun d m => Dict.set d m.1 m.2) []

mutual
/-- `scan_once`. -/
def scanValue (h : Hooks) : Nat → Str → Option (Value × Str)
  | 0,_ => none
  | fuel + 1,s =>
    match s with
    | [] => none
    | c::rest =>
      if c = '"' then (scanString rest).map (fun read => (.str read.1,read.2))
      else if c = '[' then
        match skip rest with
        | [] => none
        | d::more =>
          if d = ']' then some (.list [],more)
          else (scanItems h fuel (d::more)).map (fun read => (.list read.1,read.2))
      else if c = CodePoint.openingBrace then
        match skip rest with
        | [] => none
        | d::more =>
          if d = CodePoint.closingBrace then some (.dict [],more)
          else (scanMembers h fuel (d::more)).map (fun read => (.dict (ofPairs read.1),read.2))
      else scanLeaf h s
def scanItems (h : Hooks) : Nat → Str → Option (List Value × Str)
  | 0,_ => none
  | fuel + 1,s =>
    match scanValue h fuel s with
    | none => none
    | some (item,rest) =>
      match skip rest with
      | [] => none
      | c::rest =>
        if c = ']' then some ([item],rest)
        else if c = ',' then (scanItems h fuel (skip rest)).map (fun read => (item::read.1,read.2))
        else none
def scanMembers (h : Hooks) : Nat → Str → Option (List (Str × Value) × Str)
  | 0,_ => none
  | _,[] => none
  | fuel + 1,quote::s =>
    if quote = '"' then
      match scanString s with
      | none => none
      | some (key,rest) =>
        match skip rest with
        | [] => none
        | colon::rest =>
          if colon = ':' then
            match scanValue h fuel (skip rest) with
            | none => none
            | some (value,rest) =>
              match skip rest with
              | [] => none
              | c::rest =>
                if c = CodePoint.closingBrace then some ([(key,value)],rest)
                else if c = ',' then
                  (scanMembers h fuel (skip rest)).map (fun read => ((key,value)::read.1,read.2))
                else none
          else none
    else none
end

/-- `json.loads`: each of its refusals is a `ValueError`. A value takes at most two steps
for each code point of its text. -/
def loads {E : Type} (h : Hooks) (s : Str) : Except (Exc E) Value :=
  if s.head? = some (Fin.ofNat _ 0xFEFF) then .error .valueError
  else match scanValue h (2 * s.length) (skip s) with
    | some (v,rest) => if (skip rest).isEmpty then .ok v else .error .valueError
    | none => .error .valueError

end Scanner

section Strings

theorem hexDigit?_hexDigit {n : Nat} (digit : n < 16) : hexDigit? (hexDigit n) = some n := by
  have each : ∀ n : Fin 16, hexDigit? (hexDigit n.val) = some n.val := by decide
  exact each ⟨n,digit⟩

/-- A `\u00XX` escape, as control characters are written. -/
theorem scanPoint_control {c : CodePoint} (low : c.val < 0x20) (rest : Str) :
    scanPoint (Str.lit "\\u00" ++ [hexDigit (c.val / 16),hexDigit (c.val % 16)] ++ rest) = some (c,rest) := by
  have digits : scanHex (CodePoint.ofChar '0' :: CodePoint.ofChar '0' :: hexDigit (c.val / 16) ::
      hexDigit (c.val % 16) :: rest) = some (c.val,rest) := by
    rw [scanHex,hexDigit?_hexDigit (by omega),hexDigit?_hexDigit (by omega),
      show hexDigit? (CodePoint.ofChar '0') = some 0 from rfl]
    have value : 4096 * 0 + 256 * 0 + 16 * (c.val / 16) + c.val % 16 = c.val := by omega
    simp only [value]
  have read : scanPoint (Str.lit "\\u00" ++ [hexDigit (c.val / 16),hexDigit (c.val % 16)] ++ rest) =
      scanUnicode (CodePoint.ofChar '0' :: CodePoint.ofChar '0' :: hexDigit (c.val / 16) ::
        hexDigit (c.val % 16) :: rest) := rfl
  have same : (Fin.ofNat 0x110000 c.val) = c := Fin.ext (Nat.mod_eq_of_lt c.isLt)
  rw [read,scanUnicode,digits]
  simp only [same]
  rw [if_neg (by omega)]

theorem scanPoint_escapePoint (c : CodePoint) (rest : Str) : scanPoint (escapePoint c ++ rest) = some (c,rest) := by
  unfold escapePoint
  split
  next quote => rw [quote]; rfl
  next noQuote =>
    split
    next backslash => rw [backslash]; rfl
    next noBackslash =>
      split
      next newline => rw [newline]; rfl
      next =>
        split
        next carriage => rw [carriage]; rfl
        next =>
          split
          next tab => rw [tab]; rfl
          next =>
            split
            next backspace => rw [show c = Fin.ofNat _ 0x08 from Fin.ext backspace]; rfl
            next =>
              split
              next feed => rw [show c = Fin.ofNat _ 0x0C from Fin.ext feed]; rfl
              next =>
                split
                next low => exact scanPoint_control low rest
                next plain =>
                  rw [List.singleton_append,scanPoint.eq_def]
                  simp only [if_neg noBackslash,if_neg plain]

/-- No escape starts as a closing quote does. -/
theorem escapePoint_start (c : CodePoint) :
    ∃ d tail, escapePoint c = d::tail ∧ d ≠ CodePoint.ofChar '"' := by
  unfold escapePoint
  split
  next => exact ⟨_,_,rfl,by decide⟩
  next noQuote =>
    repeat' split
    all_goals first
      | exact ⟨_,_,rfl,noQuote⟩
      | exact ⟨_,_,rfl,by decide⟩

theorem scanPoints_step {d point : CodePoint} {tail rest : Str} {fuel : Nat} (other : d ≠ CodePoint.ofChar '"')
    (read : scanPoint (d::tail) = some (point,rest)) :
    scanPoints (fuel + 1) (d::tail) = (scanPoints fuel rest).map (fun more => (point::more.1,more.2)) := by
  rw [scanPoints,if_neg other,read]

theorem scanPoints_escaped (s rest : Str) {fuel : Nat} (enough : s.length < fuel) :
    scanPoints fuel (s.flatMap escapePoint ++ CodePoint.ofChar '"' :: rest) = some (s,rest) := by
  induction s generalizing fuel with
  | nil =>
    obtain ⟨fuel,rfl⟩ := Nat.exists_eq_add_of_lt enough
    simp [scanPoints]
  | cons c s ih =>
    obtain ⟨fuel,rfl⟩ : ∃ more, fuel = more + 1 := ⟨fuel - 1,by omega⟩
    obtain ⟨d,tail,shape,other⟩ := escapePoint_start c
    have read := scanPoint_escapePoint c (s.flatMap escapePoint ++ CodePoint.ofChar '"' :: rest)
    rw [shape,List.cons_append] at read
    rw [List.flatMap_cons,List.append_assoc,shape,List.cons_append,scanPoints_step other read,
      ih (by simpa using enough)]
    rfl

theorem scanString_quoted (s rest : Str) :
    scanString (s.flatMap escapePoint ++ CodePoint.ofChar '"' :: rest) = some (s,rest) := by
  have grows : s.length ≤ (s.flatMap escapePoint).length := by
    induction s with
    | nil => simp
    | cons c s ih =>
      obtain ⟨d,tail,shape,_⟩ := escapePoint_start c
      rw [List.flatMap_cons,shape,List.length_append,List.length_cons,List.length_cons]
      omega
  apply scanPoints_escaped
  rw [List.length_append,List.length_cons]
  omega

end Strings

section Numerals

theorem digitsValue_natural (n : Nat) : Str.digitsValue (Decimal.natural n) = n := by
  have value := Nat.ofDigitChars_ten_toDigits (n := n)
  rw [Nat.ofDigitChars_eq_foldl] at value
  rw [Str.digitsValue,Decimal.natural,List.foldl_map]
  exact value

theorem length_natural {n : Nat} (printable : n < 10 ^ Decimal.maxDigits) :
    (Decimal.natural n).length ≤ Decimal.maxDigits := by
  rw [Decimal.natural,List.length_map]
  exact (Nat.length_toDigits_le_iff (by omega) (by decide)).mpr printable

theorem natural_start {n : Nat} (positive : 0 < n) :
    ∃ c tail, Decimal.natural n = c::tail ∧ c ≠ CodePoint.ofChar '0' := by
  induction n using Nat.strongRecOn with
  | ind n ih =>
    by_cases small : n < 10
    · have shape : Decimal.natural n = [CodePoint.ofChar n.digitChar] := by
        rw [Decimal.natural,Nat.toDigits_of_lt_base small,List.map_singleton]
      have nonzero : ∀ d : Fin 10, 0 < d.val → d.val.digitChar ≠ '0' := by decide
      have other := nonzero ⟨n,small⟩ positive
      exact ⟨_,_,shape,fun same => other (CodePoint.ofChar_injective same)⟩
    · obtain ⟨c,tail,shape,other⟩ := ih (n / 10) (by omega) (by omega)
      have longer : Decimal.natural n = Decimal.natural (n / 10) ++ [CodePoint.ofChar (n % 10).digitChar] := by
        rw [Decimal.natural,Nat.toDigits_of_base_le (by omega) (by omega),List.map_append,List.map_singleton,
          Decimal.natural]
      exact ⟨c,_,by rw [longer,shape,List.cons_append],other⟩

theorem takeWhile_digits {s rest : Str} (digits : ∀ c ∈ s, c.isDigit = true) (ends : Ends stops rest) :
    (s ++ rest).takeWhile CodePoint.isDigit = s ∧ (s ++ rest).dropWhile CodePoint.isDigit = rest := by
  have stop : ∀ c ∈ rest.head?, ¬ c.isDigit = true := by
    intro c first digit
    have stopped := ends c first
    rw [stops,isWordPoint_of_isDigit digit] at stopped
    cases stopped
  rw [List.takeWhile_append_of_pos digits,List.dropWhile_append_of_pos digits]
  cases rest with
  | nil => simp
  | cons c rest =>
    have other := stop c (by simp)
    rw [List.takeWhile_cons_of_neg other,List.dropWhile_cons_of_neg other,List.append_nil]
    exact ⟨rfl,rfl⟩

theorem scanWhole_natural (n : Nat) {rest : Str} (ends : Ends stops rest) :
    scanWhole (Decimal.natural n ++ rest) = some (Decimal.natural n,rest) := by
  rcases Nat.eq_zero_or_pos n with rfl | positive
  · rfl
  · obtain ⟨c,tail,shape,other⟩ := natural_start positive
    have digits : ∀ d ∈ c::tail, d.isDigit = true := by
      rw [← shape]
      exact fun d => Decimal.isDigit_of_mem_natural
    rw [List.forall_mem_cons] at digits
    obtain ⟨taken,dropped⟩ := takeWhile_digits digits.2 ends
    rw [shape,List.cons_append,scanWhole,if_neg other,if_pos digits.1,taken,dropped]

theorem scanFraction_ends {rest : Str} (ends : Ends stops rest) : scanFraction rest = ([],rest) := by
  fun_cases scanFraction rest with
  | case1 c d rest met =>
    have stopped := ends c (by simp)
    rw [met.1] at stopped
    cases stopped
  | case2 => rfl
  | case3 => rfl

theorem scanPower_ends {rest : Str} (ends : Ends stops rest) : scanPower rest = ([],rest) := by
  cases rest with
  | nil => rfl
  | cons c rest =>
    have stopped : stops c = true := ends c (by simp)
    have noLetter : ¬ (c = CodePoint.ofChar 'e' ∨ c = CodePoint.ofChar 'E') := by
      rintro (rfl | rfl)
      · cases stopped
      · cases stopped
    rw [scanPower.eq_def]
    simp only [if_neg noLetter]

theorem stripSign_text (n : Int) (rest : Str) :
    Str.stripSign (Decimal.text n ++ rest) = (decide (n < 0),Decimal.natural n.natAbs ++ rest) := by
  unfold Decimal.text
  split
  next negative => simp [Str.stripSign,negative]
  next natural =>
    obtain ⟨c,tail,shape⟩ := List.exists_cons_of_ne_nil (Decimal.natural_ne_nil n.natAbs)
    have digit := Decimal.isDigit_of_mem_natural (show c ∈ Decimal.natural n.natAbs by simp [shape])
    have noSign : c ≠ CodePoint.ofChar '-' := by
      rintro rfl
      cases digit
    rw [shape,List.cons_append,Str.stripSign,if_neg noSign]
    simp [natural]

theorem scanNumber_text (h : Hooks) {n : Int} (printable : Decimal.printable n = true) {rest : Str}
    (ends : Ends stops rest) : scanNumber h (Decimal.text n ++ rest) = some (.int n,rest) := by
  have short := length_natural (of_decide_eq_true printable)
  have value : (if decide (n < 0) = true then -(n.natAbs : Int) else (n.natAbs : Int)) = n := by
    split
    next negative =>
      have below := of_decide_eq_true negative
      omega
    next natural =>
      rw [decide_eq_true_eq] at natural
      omega
  simp only [scanNumber,stripSign_text,scanWhole_natural _ ends,scanFraction_ends ends,scanPower_ends ends,
    List.isEmpty_nil,Bool.and_self,if_true,if_pos short,digitsValue_natural,value]

end Numerals

section Values

variable (h : Hooks) {o : Options}

theorem skip_of_start {c : CodePoint} (s : Str) (filled : isBlank c = false) : skip (c::s) = c::s := by
  rw [skip,List.dropWhile_cons_of_neg (by simp [filled])]

theorem word_eq_none {s : Str} {text : String} (other : ¬ Str.lit text <+: s) : word s text = none := by
  rw [word,if_neg]
  exact fun starts => other (List.isPrefixOf_iff_prefix.mp starts)

theorem word_other {c d : CodePoint} {tail more : Str} {text : String} (shape : Str.lit text = d::more) (other : d ≠ c) :
    word (c::tail) text = none := by
  apply word_eq_none
  rw [shape,List.cons_prefix_cons]
  exact fun starts => other starts.1

/-- A text that starts as a number does, sign included. -/
theorem scanLeaf_number {c d : CodePoint} {tail more : Str} (digit : d.isDigit = true)
    (shape : c::tail = d::more ∨ c::tail = CodePoint.ofChar '-' :: d::more) :
    scanLeaf h (c::tail) = scanNumber h (c::tail) := by
  have apart : ∀ x : CodePoint, x.isDigit = false → x ≠ d := by
    rintro x noDigit rfl
    rw [digit] at noDigit
    cases noDigit
  have first : ∀ (text : String) (x : CodePoint) (rest : Str), Str.lit text = x::rest → x.isDigit = false →
      x ≠ CodePoint.ofChar '-' → word (c::tail) text = none := by
    intro text x rest start noDigit noSign
    rcases shape with same | same
    · rw [same]
      exact word_other start (apart x noDigit)
    · rw [same]
      exact word_other start noSign
  have negative : word (c::tail) "-Infinity" = none := by
    rcases shape with same | same
    · rw [same]
      exact word_other rfl (apart _ (by decide))
    · have shape : Str.lit "-Infinity" = CodePoint.ofChar '-' :: CodePoint.ofChar 'I' :: Str.lit "nfinity" := rfl
      rw [same]
      apply word_eq_none
      rw [shape,List.cons_prefix_cons,List.cons_prefix_cons]
      exact fun starts => apart _ (by decide) starts.2.1
  rw [scanLeaf,first "null" _ _ rfl (by decide) (by decide),first "true" _ _ rfl (by decide) (by decide),
    first "false" _ _ rfl (by decide) (by decide),first "NaN" _ _ rfl (by decide) (by decide),
    first "Infinity" _ _ rfl (by decide) (by decide),negative]

theorem scanLeaf_text {n : Int} (printable : Decimal.printable n = true) {rest : Str} (ends : Ends stops rest) :
    scanLeaf h (Decimal.text n ++ rest) = some (.int n,rest) := by
  obtain ⟨d,more,digits⟩ := List.exists_cons_of_ne_nil (Decimal.natural_ne_nil n.natAbs)
  have digit := Decimal.isDigit_of_mem_natural (show d ∈ Decimal.natural n.natAbs by simp [digits])
  have shape : Decimal.text n ++ rest = d::(more ++ rest) ∨
      Decimal.text n ++ rest = CodePoint.ofChar '-' :: d::(more ++ rest) := by
    unfold Decimal.text
    split
    · exact Or.inr (by rw [digits]; rfl)
    · exact Or.inl (by rw [digits]; rfl)
  rw [← scanNumber_text h printable ends]
  rcases shape with same | same
  · rw [same]
    exact scanLeaf_number h digit (Or.inl rfl)
  · rw [same]
    exact scanLeaf_number h digit (Or.inr rfl)

/-- Neither a float, nor an integer too long to write, nor foreign to JSON. -/
def leafPlain : Value → Bool
  | .int n => Decimal.printable n
  | .float _ => false
  | .other _ _ _ => false
  | _ => true

def Plain (v : Value) : Prop := v.every leafPlain (fun _ => true) = true

theorem plain_int {n : Int} : Plain (.int n) ↔ Decimal.printable n = true := by
  rw [Plain,Value.every,leafPlain]

theorem plain_list {items : List Value} : Plain (.list items) ↔ ∀ v ∈ items, Plain v := Value.every_list

theorem plain_dict {members : Dict} : Plain (.dict members) ↔ ∀ m ∈ members, Plain m.2 := by
  simp [Plain,Value.every_dict]

theorem plain_sorted {v : Value} : Plain v.sorted ↔ Plain v := by
  rw [Plain,Value.every_sorted (fun _ _ _ => rfl)]
  rfl

theorem Plain.writable {E : Type} {v : Value} (plain : Plain v) : Writable E o v := by
  refine writable_iff.mpr (Value.every_of_every (fun v leaf => ?_) (fun _ all => all) plain)
  cases v with
  | int n => exact leaf
  | float x => cases leaf
  | other kind repr json => cases leaf
  | _ => rfl

/-- How the text of a value starts. -/
theorem Plain.start (compact : o.Compact) {v : Value} (plain : Plain v) :
    ∃ c tail, render o v = c::tail ∧ isBlank c = false ∧ c ≠ CodePoint.ofChar ']' := by
  obtain ⟨c,tail,shape,kind⟩ := render_start compact.strict (plain.writable (E := Empty))
  refine ⟨c,tail,shape,?_⟩
  cases opens : opener v with
  | some bracket =>
    rw [opens] at kind
    cases v with
    | str s => cases opens; subst kind; decide
    | list items => cases opens; subst kind; decide
    | dict members => cases opens; subst kind; decide
    | _ => cases opens
  | none =>
    rw [opens] at kind
    have other : ∀ d : CodePoint, isWordPoint d = false → c ≠ d := by
      rintro d plain rfl
      rw [kind] at plain
      cases plain
    refine ⟨?_,other _ (by decide)⟩
    simp only [isBlank,Bool.or_eq_false_iff,decide_eq_false_iff_not]
    exact ⟨⟨⟨other _ (by decide),other _ (by decide)⟩,other _ (by decide)⟩,other _ (by decide)⟩

theorem Plain.skip (compact : o.Compact) {v : Value} (plain : Plain v) (rest : Str) :
    skip (render o v ++ rest) = render o v ++ rest := by
  obtain ⟨c,tail,shape,filled,_⟩ := plain.start compact
  rw [shape]
  exact skip_of_start _ filled

theorem ofPairs_append {read members : Dict} (distinct : (Assoc.keys (read ++ members)).Nodup) :
    members.foldl (fun d m => Dict.set d m.1 m.2) read = read ++ members := by
  induction members generalizing read with
  | nil => simp
  | cons m rest ih =>
    have absent : m.1 ∉ Assoc.keys read := by
      intro present
      rw [Assoc.keys,List.map_append] at distinct
      exact (List.nodup_append.mp distinct).2.2 _ present _ (by simp) rfl
    have added : Dict.set read m.1 m.2 = read ++ [m] := Assoc.set_of_absent absent
    rw [List.foldl_cons,added,ih (by simpa using distinct)]
    simp

theorem ofPairs_distinct {members : Dict} (distinct : (Assoc.keys members).Nodup) : ofPairs members = members :=
  @ofPairs_append [] members distinct

/-- The text of a value, read with enough fuel whatever follows it. -/
def Reads (o : Options) (v : Value) : Prop :=
  ∀ fuel rest, 2 * (render o v).length ≤ fuel → Ends stops rest → scanValue h fuel (render o v ++ rest) = some (v,rest)

section Containers

variable (compact : o.Compact)
include compact

omit compact in
theorem scanItems_step {v : Value} (reads : Reads h o v) {fuel : Nat} (enough : 2 * (render o v).length ≤ fuel)
    {c : CodePoint} {rest : Str} (stopped : stops c = true) (filled : isBlank c = false) :
    scanItems h (fuel + 1) (render o v ++ c::rest) =
      if c = CodePoint.ofChar ']' then some ([v],rest)
      else if c = CodePoint.ofChar ',' then
        (scanItems h fuel (skip rest)).map (fun read => (v::read.1,read.2))
      else none := by
  rw [scanItems,reads fuel _ enough (Ends.cons stopped)]
  simp only [skip_of_start _ filled]

theorem scanItems_glue {items : List Value} (filled : items ≠ []) (plain : ∀ v ∈ items, Plain v)
    (each : ∀ v ∈ items, Reads h o v) {fuel : Nat}
    (enough : 2 * (Split.glue [CodePoint.ofChar ','] (items.map (render o))).length + 2 < fuel) (rest : Str) :
    scanItems h fuel (Split.glue [CodePoint.ofChar ','] (items.map (render o)) ++ CodePoint.ofChar ']' :: rest) =
      some (items,rest) := by
  induction items generalizing fuel with
  | nil => exact absurd rfl filled
  | cons v items ih =>
    obtain ⟨fuel,rfl⟩ : ∃ more, fuel = more + 1 := ⟨fuel - 1,by omega⟩
    rw [List.forall_mem_cons] at plain each
    cases items with
    | nil =>
      simp only [List.map_cons,List.map_nil,Split.glue] at enough ⊢
      rw [scanItems_step h each.1 (by omega) (by decide) (by decide),if_pos rfl]
    | cons w items =>
      simp only [List.map_cons,Split.glue,List.length_append,List.length_cons,List.length_nil] at enough
      obtain ⟨c,tail,start,letter,_⟩ := (plain.2 w (by simp)).start compact
      have next : skip (Split.glue [CodePoint.ofChar ','] ((w::items).map (render o)) ++ CodePoint.ofChar ']' :: rest) =
          Split.glue [CodePoint.ofChar ','] ((w::items).map (render o)) ++ CodePoint.ofChar ']' :: rest := by
        rw [List.map_cons,glue_cons,start]
        exact skip_of_start _ letter
      have shape : Split.glue [CodePoint.ofChar ','] ((v::w::items).map (render o)) ++ CodePoint.ofChar ']' :: rest =
          render o v ++ CodePoint.ofChar ',' ::
            (Split.glue [CodePoint.ofChar ','] ((w::items).map (render o)) ++ CodePoint.ofChar ']' :: rest) := by
        simp [Split.glue]
      rw [shape,scanItems_step h each.1 (by omega) (by decide) (by decide),if_neg (by decide),if_pos rfl,next,
        ih (by simp) plain.2 each.2 (by simp only [List.map_cons]; omega)]
      rfl

theorem scanMembers_step {m : Str × Value} (plain : Plain m.2) (reads : Reads h o m.2) {fuel : Nat}
    (enough : 2 * (render o m.2).length ≤ fuel)
    {c : CodePoint} {rest : Str} (stopped : stops c = true) (filled : isBlank c = false) :
    scanMembers h (fuel + 1) (renderMember o m ++ c::rest) =
      if c = CodePoint.closingBrace then some ([m],rest)
      else if c = CodePoint.ofChar ',' then
        (scanMembers h fuel (skip rest)).map (fun read => (m::read.1,read.2))
      else none := by
  have shape : renderMember o m ++ c::rest = CodePoint.ofChar '"' ::
      (m.1.flatMap escapePoint ++ CodePoint.ofChar '"' :: CodePoint.ofChar ':' :: (render o m.2 ++ c::rest)) := by
    simp [renderMember,compact.keys,quoted]
  rw [shape,scanMembers,if_pos rfl,scanString_quoted]
  have colon : skip (CodePoint.ofChar ':' :: (render o m.2 ++ c::rest)) =
      CodePoint.ofChar ':' :: (render o m.2 ++ c::rest) := skip_of_start _ (by decide)
  simp only [colon,if_true,plain.skip compact,reads fuel _ enough (Ends.cons stopped),skip_of_start _ filled]

theorem scanMembers_glue {members : Dict} (filled : members ≠ []) (plain : ∀ m ∈ members, Plain m.2)
    (each : ∀ m ∈ members, Reads h o m.2) {fuel : Nat}
    (enough : 2 * (Split.glue [CodePoint.ofChar ','] (members.map (renderMember o))).length + 2 < fuel) (rest : Str) :
    scanMembers h fuel
        (Split.glue [CodePoint.ofChar ','] (members.map (renderMember o)) ++ CodePoint.closingBrace :: rest) =
      some (members,rest) := by
  have longer : ∀ m : Str × Value, (render o m.2).length ≤ (renderMember o m).length := by
    intro m
    simp only [renderMember,List.length_append]
    omega
  induction members generalizing fuel with
  | nil => exact absurd rfl filled
  | cons m members ih =>
    obtain ⟨fuel,rfl⟩ : ∃ more, fuel = more + 1 := ⟨fuel - 1,by omega⟩
    rw [List.forall_mem_cons] at plain each
    have room := longer m
    cases members with
    | nil =>
      simp only [List.map_cons,List.map_nil,Split.glue] at enough ⊢
      rw [scanMembers_step h compact plain.1 each.1 (by omega) (by decide) (by decide),if_pos rfl]
    | cons n members =>
      simp only [List.map_cons,Split.glue,List.length_append,List.length_cons,List.length_nil] at enough
      have next : skip (Split.glue [CodePoint.ofChar ','] ((n::members).map (renderMember o)) ++
          CodePoint.closingBrace :: rest) =
          Split.glue [CodePoint.ofChar ','] ((n::members).map (renderMember o)) ++ CodePoint.closingBrace :: rest := by
        rw [List.map_cons,glue_cons]
        exact skip_of_start _ (by decide)
      have shape : Split.glue [CodePoint.ofChar ','] ((m::n::members).map (renderMember o)) ++
          CodePoint.closingBrace :: rest = renderMember o m ++ CodePoint.ofChar ',' ::
            (Split.glue [CodePoint.ofChar ','] ((n::members).map (renderMember o)) ++ CodePoint.closingBrace :: rest) := by
        simp [Split.glue]
      rw [shape,scanMembers_step h compact plain.1 each.1 (by omega) (by decide) (by decide),if_neg (by decide),
        if_pos rfl,next,ih (by simp) plain.2 each.2 (by simp only [List.map_cons]; omega)]
      rfl

omit compact in
theorem scanValue_leaf {c : CodePoint} (tail : Str) (fuel : Nat) (letter : isWordPoint c = true) :
    scanValue h (fuel + 1) (c::tail) = scanLeaf h (c::tail) := by
  have other : ∀ d : CodePoint, isWordPoint d = false → c ≠ d := by
    rintro d plain rfl
    rw [letter] at plain
    cases plain
  rw [scanValue.eq_def]
  simp only [if_neg (other (CodePoint.ofChar '"') (by decide)),if_neg (other (CodePoint.ofChar '[') (by decide)),
    if_neg (other CodePoint.openingBrace (by decide))]

/-- Numbers and words. -/
theorem reads_leaf {v : Value} (plain : Plain v) (word : opener v = none)
    (leaf : ∀ rest, Ends stops rest → scanLeaf h (render o v ++ rest) = some (v,rest)) : Reads h o v := by
  intro fuel rest enough ends
  obtain ⟨c,tail,start,letter⟩ := render_start compact.strict (plain.writable (E := Empty))
  rw [word] at letter
  have read := leaf rest ends
  rw [start,List.length_cons] at enough
  obtain ⟨fuel,rfl⟩ : ∃ more, fuel = more + 1 := ⟨fuel - 1,by omega⟩
  rw [start,List.cons_append] at read ⊢
  rw [scanValue_leaf h _ fuel letter]
  exact read

theorem reads_list {items : List Value} (plain : ∀ v ∈ items, Plain v) (each : ∀ v ∈ items, Reads h o v) :
    Reads h o (.list items) := by
  intro fuel rest enough ends
  have shape : render o (.list items) = CodePoint.ofChar '[' ::
      (Split.glue [CodePoint.ofChar ','] (items.map (render o)) ++ [CodePoint.ofChar ']']) := by
    rw [render,renderList_eq_map,Str.join,compact.items]
  rw [shape,List.length_cons,List.length_append,List.length_singleton] at enough
  obtain ⟨fuel,rfl⟩ : ∃ more, fuel = more + 1 := ⟨fuel - 1,by omega⟩
  rw [shape,List.cons_append,List.append_assoc,List.singleton_append,scanValue.eq_def]
  simp only [if_neg (show CodePoint.ofChar '[' ≠ CodePoint.ofChar '"' by decide),if_true]
  cases items with
  | nil => rfl
  | cons v items =>
    obtain ⟨c,tail,start,filled,other⟩ := (plain v (by simp)).start compact
    have read := @scanItems_glue h o compact _ (by simp) plain each fuel (by omega) rest
    rw [List.map_cons,glue_cons,start,List.cons_append,List.cons_append] at read ⊢
    rw [skip_of_start _ filled]
    simp only [if_neg other,read]
    rfl

theorem reads_dict {members : Dict} (distinct : (Assoc.keys members).Nodup) (plain : ∀ m ∈ members, Plain m.2)
    (each : ∀ m ∈ members, Reads h o m.2) : Reads h o (.dict members) := by
  intro fuel rest enough ends
  have shape : render o (.dict members) = CodePoint.openingBrace ::
      (Split.glue [CodePoint.ofChar ','] (members.map (renderMember o)) ++ [CodePoint.closingBrace]) := by
    rw [render,renderMembers_eq_map,Str.join,compact.items]
    rfl
  rw [shape,List.length_cons,List.length_append,List.length_singleton] at enough
  obtain ⟨fuel,rfl⟩ : ∃ more, fuel = more + 1 := ⟨fuel - 1,by omega⟩
  rw [shape,List.cons_append,List.append_assoc,List.singleton_append,scanValue.eq_def]
  simp only [if_neg (show CodePoint.openingBrace ≠ CodePoint.ofChar '"' by decide),
    if_neg (show CodePoint.openingBrace ≠ CodePoint.ofChar '[' by decide),if_true]
  cases members with
  | nil => rfl
  | cons m members =>
    have read := @scanMembers_glue h o compact _ (by simp) plain each fuel (by omega) rest
    have start : ∃ tail, renderMember o m = CodePoint.ofChar '"' :: tail := ⟨_,rfl⟩
    obtain ⟨tail,start⟩ := start
    rw [List.map_cons,glue_cons,start,List.cons_append,List.cons_append] at read ⊢
    rw [skip_of_start _ (by decide)]
    simp only [if_neg (show CodePoint.ofChar '"' ≠ CodePoint.closingBrace by decide),read,Option.map_some,
      ofPairs_distinct distinct]

/-- Reading undoes writing. -/
theorem reads {v : Value} (plain : Plain v) (distinct : v.distinct = true) : Reads h o v := by
  induction v using Value.induct with
  | null => exact reads_leaf h compact plain rfl (fun _ _ => rfl)
  | bool b =>
    refine reads_leaf h compact plain rfl (fun _ _ => ?_)
    cases b with
    | true => rfl
    | false => rfl
  | int n => exact reads_leaf h compact plain rfl (fun _ ends => scanLeaf_text h (plain_int.mp plain) ends)
  | float x => cases plain
  | other kind repr json ih => cases plain
  | str s =>
    intro fuel rest enough ends
    obtain ⟨fuel,rfl⟩ : ∃ more, fuel = more + 1 := ⟨fuel - 1,by simp [render,quoted] at enough; omega⟩
    have shape : render o (.str s) ++ rest =
        CodePoint.ofChar '"' :: (s.flatMap escapePoint ++ CodePoint.ofChar '"' :: rest) := by
      simp [render,quoted]
    rw [shape,scanValue.eq_def]
    simp only [if_true,scanString_quoted]
    rfl
  | list items ih =>
    rw [plain_list] at plain
    rw [Value.distinct_list] at distinct
    exact reads_list h compact plain (fun v member => ih v member (plain v member) (distinct v member))
  | dict members ih =>
    rw [plain_dict] at plain
    rw [Value.distinct_dict] at distinct
    exact reads_dict h compact distinct.1 plain
      (fun m member => ih m member (plain m member) (distinct.2 m member))

/-- `json.loads` of the compact text gives the value back. -/
theorem loads_render {E : Type} {v : Value} (plain : Plain v) (distinct : v.distinct = true) :
    (loads h (render o v) : Except (Exc E) Value) = .ok v := by
  obtain ⟨c,tail,start,filled,_⟩ := plain.start compact
  have mark : (render o v).head? ≠ some (Fin.ofNat _ 0xFEFF) := by
    obtain ⟨d,more,begins,kind⟩ := render_start compact.strict (plain.writable (E := Empty))
    rw [begins,List.head?_cons,Ne,Option.some.injEq]
    rintro rfl
    cases opens : opener v with
    | none =>
      rw [opens] at kind
      cases kind
    | some bracket =>
      rw [opens] at kind
      cases v <;> cases opens <;> cases kind
  have read := reads h compact plain distinct (2 * (render o v).length) [] le_rfl Ends.nil
  rw [List.append_nil] at read
  have whole := plain.skip compact (o := o) []
  rw [List.append_nil] at whole
  rw [loads,if_neg mark,whole,read]
  rfl

end Containers

end Values

end Python.Json
