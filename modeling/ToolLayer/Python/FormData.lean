import ToolLayer.Python.Url
import ToolLayer.Python.Utf8Decoding

/-! Reading `application/x-www-form-urlencoded` text, and `urlencode` as its inverse. -/
namespace Python.Url
open Kit Kit.Result

/-- The value of a hexadecimal digit of either case. -/
def hexValue (c : CodePoint) : Option Nat :=
  if c.isDigit then some (c.val - 0x30)
  else if c.between 0x41 0x46 then some (c.val - 0x37)
  else if c.between 0x61 0x66 then some (c.val - 0x57)
  else none

/-- The byte that two hexadecimal digits after a percent sign stand for. -/
def escaped (first second : CodePoint) : Option Byte := do
  let high ← hexValue first
  let low ← hexValue second
  return Utf8.byte (16 * high + low)

/-- The bytes of one run: `+` is a space, `%XY` a byte, and anything else its encoding. -/
def unquotePlusBytes : Str → Bytes
  | [] => []
  | c::rest =>
    if c = '+' then Utf8.byte 0x20 :: unquotePlusBytes rest
    else if c = '%' then match rest with
      | first::second::tail =>
        match escaped first second with
        | some b => b :: unquotePlusBytes tail
        | none => Utf8.byte 0x25 :: unquotePlusBytes (first::second::tail)
      | short => Utf8.byte 0x25 :: unquotePlusBytes short
    else Utf8.encodePoint c ++ unquotePlusBytes rest

/-- Only ASCII runs are decoded, `run` being the bytes of the current one; any other code point stays,
a lone surrogate too. -/
def unquoteRuns (run : Bytes) : Str → Str
  | [] => Utf8.decodeReplace run
  | c::rest =>
    if !c.isAscii then Utf8.decodeReplace run ++ c :: unquoteRuns [] rest
    else if c = '+' then unquoteRuns (run ++ [Utf8.byte 0x20]) rest
    else if c = '%' then match rest with
      | first::second::tail =>
        match escaped first second with
        | some b => unquoteRuns (run ++ [b]) tail
        | none => unquoteRuns (run ++ [Utf8.byte 0x25]) (first::second::tail)
      | short => unquoteRuns (run ++ [Utf8.byte 0x25]) short
    else unquoteRuns (run ++ Utf8.encodePoint c) rest

/-- `unquote_plus(text)`. -/
def unquotePlus (text : Str) : Str := unquoteRuns [] text

/-- A name and its value; an empty field is passed over. -/
def readField (field : Str) : Option (Str × Str) :=
  if field.isEmpty then none
  else
    let (name,_,value) := Str.partition '=' field
    some (unquotePlus name,unquotePlus value)

/-- `parse_qsl(query, keep_blank_values=True)`. -/
def parseQsl (query : Str) : List (Str × Str) := (Str.split query '&').filterMap readField

example : parseQsl "q=a%26b+c&&blank=" = [(Str.lit "q",Str.lit "a&b c"),(Str.lit "blank",Str.lit "")] := by decide +kernel

theorem unquotePlusBytes_plus (rest : Str) :
    unquotePlusBytes (CodePoint.ofChar '+' :: rest) = Utf8.byte 0x20 :: unquotePlusBytes rest := by
  rw [unquotePlusBytes.eq_def]
  rfl

theorem unquotePlusBytes_escaped {first second : CodePoint} {b : Byte} (read : escaped first second = some b) (rest : Str) :
    unquotePlusBytes (CodePoint.ofChar '%' :: first :: second :: rest) = b :: unquotePlusBytes rest := by
  rw [unquotePlusBytes.eq_def]
  simp only [if_neg (show CodePoint.ofChar '%' ≠ CodePoint.ofChar '+' by decide),if_true,read]

theorem unquotePlusBytes_other {c : CodePoint} (plus : c ≠ '+') (percent : c ≠ '%') (rest : Str) :
    unquotePlusBytes (c::rest) = Utf8.encodePoint c ++ unquotePlusBytes rest := by
  rw [unquotePlusBytes.eq_def]
  simp only [if_neg plus,if_neg percent]

theorem escaped_upperHex (b : Byte) : escaped (upperHex (b.val / 16)) (upperHex (b.val % 16)) = some b := by
  have digit : ∀ n < 16, hexValue (upperHex n) = some n := by
    intro n small
    interval_cases n <;> decide
  have bound := b.isLt
  have value : 16 * (b.val / 16) + b.val % 16 = b.val := Nat.div_add_mod b.val 16
  rw [escaped,digit _ (by omega),digit _ (by omega)]
  change some (Utf8.byte (16 * (b.val / 16) + b.val % 16)) = some b
  rw [value]
  exact congrArg some (Fin.ext (Utf8.val_byte bound))

/-- One byte is read back wherever it stands. -/
theorem unquotePlusBytes_plusByte (b : Byte) (rest : Str) :
    unquotePlusBytes (plusByte b ++ rest) = b :: unquotePlusBytes rest := by
  have bound := b.isLt
  unfold plusByte
  split
  next space =>
    rw [List.cons_append,List.nil_append,unquotePlusBytes_plus]
    exact congrArg (· :: _) (Fin.ext ((Utf8.val_byte (by omega)).trans space.symm))
  next visible =>
    unfold quoteByte
    dsimp only
    split
    next kept =>
      have ascii : b.val < 0x80 := unreserved_ascii kept
      have plus : (b.castLE bytes_le_codePoints : CodePoint) ≠ '+' := fun same => by rw [same] at kept; exact absurd kept (by decide)
      have percent : (b.castLE bytes_le_codePoints : CodePoint) ≠ '%' := fun same => by rw [same] at kept; exact absurd kept (by decide)
      have same : Utf8.byte (b.castLE bytes_le_codePoints : CodePoint).val = b := Fin.ext (Utf8.val_byte bound)
      rw [List.cons_append,List.nil_append,unquotePlusBytes_other plus percent,Utf8.encodePoint_ascii ascii,same]
      rfl
    next =>
      rw [List.cons_append,List.cons_append,List.cons_append,List.nil_append,unquotePlusBytes_escaped (escaped_upperHex b)]

theorem unquotePlusBytes_plusBytes (data : Bytes) : unquotePlusBytes (data.flatMap plusByte) = data := by
  induction data with
  | nil => rfl
  | cons b data ih => rw [List.flatMap_cons,unquotePlusBytes_plusByte,ih]

theorem quotePlus_eq_ok {E : Type} {s out : Str} :
    (quotePlus s : Except (Exc E) Str) = .ok out ↔ s.scalar = true ∧ (Utf8.bytes s).flatMap plusByte = out := by
  unfold quotePlus
  rw [bind_eq_ok]
  constructor
  · rintro ⟨data,encoded,written⟩
    obtain ⟨readable,rfl⟩ := Utf8.encode_eq_ok.mp encoded
    exact ⟨readable,Except.ok.inj written⟩
  · rintro ⟨readable,rfl⟩
    exact ⟨Utf8.bytes s,Utf8.encode_eq_ok.mpr ⟨readable,rfl⟩,rfl⟩

/-- Quoted text has none of the characters that delimit fields, and no fragment sign. -/
theorem plusByte_alphabet {b : Byte} {c : CodePoint} (member : c ∈ plusByte b) :
    unreserved c = true ∨ c = '%' ∨ c = '+' := by
  have bound := b.isLt
  unfold plusByte at member
  split at member
  next => exact Or.inr (Or.inr (List.mem_singleton.mp member))
  next =>
    unfold quoteByte at member
    dsimp only at member
    split at member
    next kept =>
      rw [List.mem_singleton.mp member]
      exact Or.inl kept
    next =>
      simp only [List.mem_cons,List.not_mem_nil,or_false] at member
      rcases member with rfl | rfl | rfl
      · exact Or.inr (Or.inl rfl)
      · exact Or.inl (upperHex_unreserved (by omega))
      · exact Or.inl (upperHex_unreserved (by omega))

/-- A text of ASCII is one run. -/
theorem unquoteRuns_ascii (run : Bytes) (text : Str) (ascii : ∀ c ∈ text, c.isAscii = true) :
    unquoteRuns run text = Utf8.decodeReplace (run ++ unquotePlusBytes text) := by
  induction text using unquotePlusBytes.induct generalizing run with
  | case1 => rw [unquoteRuns,unquotePlusBytes,List.append_nil]
  | case2 rest ih =>
    rw [List.forall_mem_cons] at ascii
    rw [unquotePlusBytes_plus,← @List.singleton_append _ (Utf8.byte 0x20),← List.append_assoc,← ih _ ascii.2]
    conv_lhs => unfold unquoteRuns
    simp only [ascii.1,Bool.not_true,Bool.false_eq_true,if_false,if_true]
  | case3 first second tail b read other ih =>
    rw [List.forall_mem_cons,List.forall_mem_cons,List.forall_mem_cons] at ascii
    rw [unquoteRuns,ascii.1,unquotePlusBytes_escaped read]
    simp only [Bool.not_true,Bool.false_eq_true,if_false,if_neg other,if_true,read]
    rw [ih _ ascii.2.2.2,List.append_assoc,List.singleton_append]
  | case4 first second tail unread other ih =>
    rw [List.forall_mem_cons] at ascii
    rw [unquoteRuns,ascii.1,unquotePlusBytes]
    simp only [Bool.not_true,Bool.false_eq_true,if_false,if_neg other,if_true,unread]
    rw [ih _ ascii.2,List.append_assoc,List.singleton_append]
  | case5 short no other ih =>
    rw [List.forall_mem_cons] at ascii
    rw [unquoteRuns,ascii.1,unquotePlusBytes]
    · simp only [Bool.not_true,Bool.false_eq_true,if_false,if_neg other,if_true]
      rw [ih _ ascii.2,List.append_assoc,List.singleton_append]
    · exact no
    · exact no
  | case6 c rest plus percent ih =>
    rw [List.forall_mem_cons] at ascii
    rw [unquotePlusBytes_other plus percent,← List.append_assoc,← ih _ ascii.2]
    conv_lhs => unfold unquoteRuns
    simp only [ascii.1,Bool.not_true,Bool.false_eq_true,if_false,if_neg plus,if_neg percent]

theorem unquotePlus_quotePlus {E : Type} {s out : Str} (quoted : (quotePlus s : Except (Exc E) Str) = .ok out) :
    unquotePlus out = s := by
  obtain ⟨readable,rfl⟩ := quotePlus_eq_ok.mp quoted
  have ascii : ∀ c ∈ (Utf8.bytes s).flatMap plusByte, c.isAscii = true := by
    intro c member
    obtain ⟨b,_,written⟩ := List.mem_flatMap.mp member
    rcases plusByte_alphabet written with kept | rfl | rfl
    · exact decide_eq_true (unreserved_ascii kept)
    · decide
    · decide
  rw [unquotePlus,unquoteRuns_ascii [] _ ascii,List.nil_append,unquotePlusBytes_plusBytes,Utf8.decodeReplace_bytes readable]

theorem quotePlus_alphabet {E : Type} {s out : Str} (quoted : (quotePlus s : Except (Exc E) Str) = .ok out) {c : CodePoint}
    (member : c ∈ out) : unreserved c = true ∨ c = '%' ∨ c = '+' := by
  obtain ⟨_,rfl⟩ := quotePlus_eq_ok.mp quoted
  obtain ⟨b,_,written⟩ := List.mem_flatMap.mp member
  exact plusByte_alphabet written

/-- A field as it is written, and what it reads as. -/
theorem readField_written {E : Type} {pair : Str × Str} {name value : Str}
    (first : (quotePlus pair.1 : Except (Exc E) Str) = .ok name) (second : (quotePlus pair.2 : Except (Exc E) Str) = .ok value) :
    readField (name ++ [CodePoint.ofChar '='] ++ value) = some pair ∧
      ∀ c ∈ name ++ [CodePoint.ofChar '='] ++ value, c ≠ '&' ∧ c ≠ '#' := by
  have clean : ∀ {text out : Str}, (quotePlus text : Except (Exc E) Str) = .ok out →
      ∀ c ∈ out, c ≠ '=' ∧ c ≠ '&' ∧ c ≠ '#' := by
    intro text out quoted c member
    rcases quotePlus_alphabet quoted member with kept | rfl | rfl
    · refine ⟨?_,?_,?_⟩
      all_goals
        rintro rfl
        exact absurd kept (by decide)
    · decide
    · decide
  constructor
  · have no : CodePoint.ofChar '=' ∉ name := fun member => (clean first _ member).1 rfl
    have some_ : (name ++ [CodePoint.ofChar '='] ++ value).isEmpty = false := by simp
    rw [readField,some_,List.append_assoc,List.singleton_append,Str.partition_append no]
    simp only [Bool.false_eq_true,if_false]
    rw [unquotePlus_quotePlus first,unquotePlus_quotePlus second]
  · intro c member
    simp only [List.mem_append,List.mem_singleton] at member
    rcases member with (inName | rfl) | inValue
    · exact (clean first c inName).2
    · decide
    · exact (clean second c inValue).2

/-- Only a lone surrogate keeps a list of pairs from being written. -/
theorem urlencode_ends {E : Type} {pairs : List (Str × Str)} : (∃ out, (urlencode pairs : Except (Exc E) Str) = .ok out) ↔
    ∀ pair ∈ pairs, pair.1.scalar = true ∧ pair.2.scalar = true := by
  constructor
  · rintro ⟨out,encoded⟩ pair member
    obtain ⟨fields,made,_⟩ := bind_eq_ok.mp encoded
    obtain ⟨field,_,made⟩ := exists_right (each_eq_ok.mp made) member
    obtain ⟨name,first,made⟩ := bind_eq_ok.mp made
    obtain ⟨value,second,_⟩ := bind_eq_ok.mp made
    exact ⟨(quotePlus_eq_ok.mp first).1,(quotePlus_eq_ok.mp second).1⟩
  · intro plain
    obtain ⟨fields,made⟩ := each_of_forall (f := fun pair : Str × Str => (do
      let key ← quotePlus pair.1
      let value ← quotePlus pair.2
      return key ++ [CodePoint.ofChar '='] ++ value : Except (Exc E) Str)) (fun pair member => by
        have first := (quotePlus_eq_ok (E := E)).mpr ⟨(plain pair member).1,rfl⟩
        have second := (quotePlus_eq_ok (E := E)).mpr ⟨(plain pair member).2,rfl⟩
        exact ⟨_,by rw [first,ok_bind,second]; rfl⟩)
    exact ⟨_,by rw [urlencode,made]; rfl⟩

/-- The encoded fields, each of which reads as its pair. -/
theorem urlencode_fields {E : Type} {pairs : List (Str × Str)} {out : Str}
    (encoded : (urlencode pairs : Except (Exc E) Str) = .ok out) : ∃ fields, out = Str.join "&" fields ∧
      fields.map readField = pairs.map some ∧ ∀ field ∈ fields, ∀ c ∈ field, c ≠ '&' ∧ c ≠ '#' := by
  obtain ⟨fields,made,written⟩ := bind_eq_ok.mp encoded
  refine ⟨fields,(Except.ok.inj written).symm,?_⟩
  clear encoded written
  have each_ := each_eq_ok.mp made
  clear made
  induction each_ with
  | nil => exact ⟨rfl,fun _ none_ => nomatch none_⟩
  | cons made_ _ ih =>
    obtain ⟨name,first,made_⟩ := bind_eq_ok.mp made_
    obtain ⟨value,second,made_⟩ := bind_eq_ok.mp made_
    cases made_
    obtain ⟨reads,clean⟩ := readField_written first second
    obtain ⟨others,rest⟩ := ih
    refine ⟨by rw [List.map_cons,List.map_cons,reads,others],?_⟩
    rw [List.forall_mem_cons]
    exact ⟨clean,rest⟩

/-- Fields come back from their encoding, blank ones too. -/
theorem parseQsl_urlencode {E : Type} {pairs : List (Str × Str)} {out : Str}
    (encoded : (urlencode pairs : Except (Exc E) Str) = .ok out) : parseQsl out = pairs := by
  obtain ⟨fields,rfl,reads,clean⟩ := urlencode_fields encoded
  cases fields with
  | nil =>
    cases pairs with
    | nil => rfl
    | cons pair pairs => cases reads
  | cons field fields =>
    have pieces : Str.split (Str.join "&" (field::fields)) (CodePoint.ofChar '&') = field::fields :=
      Split.cut_glue _ (x := CodePoint.ofChar '&') (by decide) (List.cons_ne_nil _ _)
        (fun piece member c inside => beq_eq_false_iff_ne.mpr (clean piece member c inside).1)
    have same := congrArg (List.filterMap id) reads
    rw [List.filterMap_map,List.filterMap_map,Function.id_comp,Function.id_comp] at same
    rw [parseQsl,pieces,same,List.filterMap_some]

theorem urlencode_plain {E : Type} {pairs : List (Str × Str)} {out : Str}
    (encoded : (urlencode pairs : Except (Exc E) Str) = .ok out) : CodePoint.ofChar '#' ∉ out := by
  obtain ⟨fields,rfl,reads,clean⟩ := urlencode_fields encoded
  clear encoded reads
  intro member
  induction fields with
  | nil => cases member
  | cons field fields ih =>
    rw [List.forall_mem_cons] at clean
    cases fields with
    | nil => exact (clean.1 _ member).2 rfl
    | cons next fields =>
      rw [Str.join,Split.glue,List.append_assoc] at member
      rcases List.mem_append.mp member with inField | later
      · exact (clean.1 _ inField).2 rfl
      · rcases List.mem_append.mp later with mark | others
        · exact absurd mark (by decide)
        · exact ih clean.2 others

end Python.Url
