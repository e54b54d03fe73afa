import ToolLayer.Kit.Delimited
import ToolLayer.Python.Json

/-! A compact JSON text determines the value it was written for. -/
namespace Python.Json
open Kit Kit.Delimited

/-- The letters of `null`, `true`, `false` and of numbers. -/
def isWordPoint (c : CodePoint) : Bool :=
  c.isAlnum || c == CodePoint.ofChar '-' || c == CodePoint.ofChar '+' || c == CodePoint.ofChar '.'

def stops (c : CodePoint) : Bool := !isWordPoint c

section Strings

def hexValue (c : CodePoint) : Nat := if c.val < 0x60 then c.val - 0x30 else c.val - 0x57

theorem hexValue_hexDigit {n : Nat} (digit : n < 16) : hexValue (hexDigit n) = n := by
  unfold hexDigit
  split
  next =>
    have value : (Fin.ofNat 0x110000 (0x30 + n)).val = 0x30 + n := Nat.mod_eq_of_lt (by omega)
    rw [hexValue,value]
    split <;> omega
  next =>
    have value : (Fin.ofNat 0x110000 (0x57 + n)).val = 0x57 + n := Nat.mod_eq_of_lt (by omega)
    rw [hexValue,value]
    split <;> omega

/-- Reads one escaped code point off the front. -/
def readPoint : Str → Option (CodePoint × Str)
  | [] => none
  | c::rest =>
    if c = '"' then none
    else if c = '\\' then
      match rest with
      | d::rest =>
        if d = 'n' then some (CodePoint.ofChar '\n',rest)
        else if d = 'r' then some (CodePoint.ofChar '\r',rest)
        else if d = 't' then some (CodePoint.ofChar '\t',rest)
        else if d = 'b' then some (Fin.ofNat _ 0x08,rest)
        else if d = 'f' then some (Fin.ofNat _ 0x0C,rest)
        else if d = 'u' then
          match rest with
          | _::_::high::low::rest =>
            some (Fin.ofNat _ (16 * hexValue high + hexValue low),rest)
          | _ => none
        else some (d,rest)
      | [] => none
    else some (c,rest)

theorem readPoint_control {c : CodePoint} (low : c.val < 0x20) (rest : Str) :
    readPoint (Str.lit "\\u00" ++ [hexDigit (c.val / 16),hexDigit (c.val % 16)] ++ rest) = some (c,rest) := by
  have read : readPoint (Str.lit "\\u00" ++ [hexDigit (c.val / 16),hexDigit (c.val % 16)] ++ rest) =
      some (Fin.ofNat _ (16 * hexValue (hexDigit (c.val / 16)) + hexValue (hexDigit (c.val % 16))),rest) := rfl
  have same : (Fin.ofNat 0x110000 (16 * (c.val / 16) + c.val % 16)) = c := by
    apply Fin.ext
    rw [Nat.div_add_mod]
    exact Nat.mod_eq_of_lt c.isLt
  rw [read,hexValue_hexDigit (by omega),hexValue_hexDigit (by omega),same]

theorem readPoint_escapePoint (c : CodePoint) (rest : Str) : readPoint (escapePoint c ++ rest) = some (c,rest) := by
  unfold escapePoint
  split
  next quote => rw [quote]; rfl
  next noQuote =>
    split
    next backslash => rw [backslash]; rfl
    next noBackslash =>
      split
      next newline => rw [newline]; rfl
      next =>
        split
        next carriage => rw [carriage]; rfl
        next =>
          split
          next tab => rw [tab]; rfl
          next =>
            split
            next backspace => rw [show c = Fin.ofNat _ 0x08 from Fin.ext backspace]; rfl
            next =>
              split
              next feed => rw [show c = Fin.ofNat _ 0x0C from Fin.ext feed]; rfl
              next =>
                split
                next low => exact readPoint_control low rest
                next => simp [readPoint,noQuote,noBackslash]

theorem escapes_cancel {s t u v : Str}
    (same : s.flatMap escapePoint ++ CodePoint.ofChar '"' :: u = t.flatMap escapePoint ++ CodePoint.ofChar '"' :: v) :
    s = t ∧ u = v := by
  have quote : ∀ rest, readPoint (CodePoint.ofChar '"' :: rest) = none := by
    intro rest
    simp [readPoint]
  induction s generalizing t with
  | nil =>
    cases t with
    | nil => exact ⟨rfl,(List.cons.inj same).2⟩
    | cons d t =>
      have read := congrArg readPoint same
      rw [List.flatMap_cons,List.append_assoc,readPoint_escapePoint] at read
      exact absurd (quote u) (by rw [show readPoint (_ :: u) = _ from read]; simp)
  | cons c s ih =>
    have read := congrArg readPoint same
    rw [List.flatMap_cons,List.append_assoc,readPoint_escapePoint] at read
    cases t with
    | nil => exact absurd (quote v) (by rw [show readPoint (_ :: v) = _ from read.symm]; simp)
    | cons d t =>
      rw [List.flatMap_cons,List.append_assoc,readPoint_escapePoint] at read
      obtain ⟨rfl,tail⟩ := Prod.mk.inj (Option.some.inj read)
      obtain ⟨rfl,rest⟩ := ih tail
      exact ⟨rfl,rest⟩

theorem quoted_cancel {s t u v : Str} (same : quoted s ++ u = quoted t ++ v) : s = t ∧ u = v := by
  simp only [quoted,List.cons_append,List.append_assoc,List.nil_append,List.cons.injEq,true_and] at same
  exact escapes_cancel same

end Strings

section Words

theorem isWordPoint_of_isDigit {c : CodePoint} (digit : c.isDigit = true) : isWordPoint c = true := by
  simp [isWordPoint,CodePoint.isAlnum,digit]

theorem isWordPoint_of_mem_text {n : Int} : ∀ c ∈ Decimal.text n, isWordPoint c = true := by
  intro c member
  unfold Decimal.text at member
  split at member
  next =>
    rcases List.mem_cons.mp member with rfl | inside
    · rfl
    · exact isWordPoint_of_isDigit (Decimal.isDigit_of_mem_natural inside)
  next => exact isWordPoint_of_isDigit (Decimal.isDigit_of_mem_natural member)

theorem stripSign_eq (s : Str) {negative : Bool} {body : Str} (strip : Str.stripSign s = (negative,body)) :
    s = body ∨ s = CodePoint.ofChar '-' :: body := by
  unfold Str.stripSign at strip
  split at strip
  next c rest =>
    split at strip
    next sign =>
      cases strip
      exact Or.inr (by rw [sign])
    next =>
      cases strip
      exact Or.inl rfl
  next =>
    cases strip
    exact Or.inl rfl

theorem isWordPoint_of_allDigits {s : Str} (digits : Str.allDigits s = true) : ∀ c ∈ s, isWordPoint c = true := by
  intro c member
  rw [Str.allDigits,Bool.and_eq_true,List.all_eq_true] at digits
  exact isWordPoint_of_isDigit (digits.2 c member)

/-- The exponent as `float.__repr__` writes it. -/
theorem isWordPoint_of_exponent {exponent power : Str} {down : Bool}
    (split : Str.signedPower exponent = (down,power))
    (digits : Str.allDigits power = true) (signed : (exponent.head? == some (CodePoint.ofChar '+') || down) = true) :
    ∀ c ∈ exponent, isWordPoint c = true := by
  cases exponent with
  | nil => simp
  | cons c rest =>
    cases split
    rw [List.forall_mem_cons]
    refine ⟨?_,isWordPoint_of_allDigits digits⟩
    rw [Bool.or_eq_true,List.head?_cons,beq_iff_eq,Option.some.injEq,decide_eq_true_eq] at signed
    rcases signed with rfl | rfl
    · rfl
    · rfl

/-- A float's text is one of three words, or a numeral with a point or an exponent. -/
theorem floatNumber?_eq_some {s : Str} {x : Number} (read : Str.floatNumber? s = some x) :
    (s = "nan" ∨ s = "inf" ∨ s = "-inf") ∨
      (∀ c ∈ s, isWordPoint c = true) ∧ (CodePoint.ofChar '.' ∈ s ∨ CodePoint.ofChar 'e' ∈ s) := by
  unfold Str.floatNumber? at read
  split at read
  next same => exact Or.inl (Or.inl same)
  next =>
    split at read
    next same => exact Or.inl (Or.inr (Or.inl same))
    next =>
      split at read
      next same => exact Or.inl (Or.inr (Or.inr same))
      next =>
        refine Or.inr ?_
        cases signed : Str.stripSign s with
        | mk negative body =>
          cases exponential : Str.partition 'e' body with
          | mk mantissa pair =>
            obtain ⟨hasExponent,exponent⟩ := pair
            cases pointed : Str.partition '.' mantissa with
            | mk whole pair =>
              obtain ⟨hasPoint,fraction⟩ := pair
              cases split : Str.signedPower exponent with
              | mk down power =>
              simp only [signed,exponential,pointed,split] at read
              split at read
              next accepted =>
                simp only [Bool.and_eq_true,Bool.or_eq_true,Bool.not_eq_true'] at accepted
                obtain ⟨⟨⟨integral,decimals⟩,scale⟩,marked⟩ := accepted
                have mantissaEq := Str.partition_eq _ _ pointed
                have bodyEq := Str.partition_eq _ _ exponential
                have inMantissa : ∀ c ∈ mantissa, isWordPoint c = true := by
                  rw [mantissaEq,List.forall_mem_append]
                  refine ⟨isWordPoint_of_allDigits integral,?_⟩
                  cases hasPoint with
                  | false => simp
                  | true =>
                    rw [if_pos rfl,List.forall_mem_cons]
                    exact ⟨rfl,isWordPoint_of_allDigits (decimals.resolve_left (by simp))⟩
                have inBody : ∀ c ∈ body, isWordPoint c = true := by
                  rw [bodyEq,List.forall_mem_append]
                  refine ⟨inMantissa,?_⟩
                  cases hasExponent with
                  | false => simp
                  | true =>
                    rw [if_pos rfl,List.forall_mem_cons]
                    obtain ⟨digits,sign⟩ := scale.resolve_left (by simp)
                    exact ⟨rfl,isWordPoint_of_exponent split digits (by simpa using sign)⟩
                have mark : CodePoint.ofChar '.' ∈ body ∨ CodePoint.ofChar 'e' ∈ body := by
                  rw [bodyEq,mantissaEq]
                  rcases marked with rfl | rfl
                  · exact Or.inl (by simp)
                  · exact Or.inr (by simp)
                rcases stripSign_eq s signed with rfl | rfl
                · exact ⟨inBody,mark⟩
                · rw [List.forall_mem_cons]
                  exact ⟨⟨rfl,inBody⟩,mark.imp (List.mem_cons_of_mem _) (List.mem_cons_of_mem _)⟩
              next => cases read

/-- The text of a float is a word in any case. -/
theorem isWordPoint_repr (x : PyFloat) : ∀ c ∈ x.repr, isWordPoint c = true := by
  rcases floatNumber?_eq_some (Option.some_get x.readable).symm with (nan | inf | minus) | ⟨letters,_⟩
  · rw [nan]
    exact List.all_eq_true.mp (by decide)
  · rw [inf]
    exact List.all_eq_true.mp (by decide)
  · rw [minus]
    exact List.all_eq_true.mp (by decide)
  · exact letters

theorem isWordPoint_floatText (x : PyFloat) : ∀ c ∈ floatText x, isWordPoint c = true := by
  unfold floatText
  split
  next => exact List.all_eq_true.mp (by decide)
  next =>
    split
    next => exact List.all_eq_true.mp (by decide)
    next =>
      split
      next => exact List.all_eq_true.mp (by decide)
      next => exact isWordPoint_repr x

theorem isWordPoint_of_float {s : Str} {m e : Int} (read : Str.floatNumber? s = some (.finite m e)) :
    (∀ c ∈ s, isWordPoint c = true) ∧ (CodePoint.ofChar '.' ∈ s ∨ CodePoint.ofChar 'e' ∈ s) := by
  rcases floatNumber?_eq_some read with (rfl | rfl | rfl) | numeral
  · cases read
  · cases read
  · cases read
  · exact numeral

end Words

section Values

variable {E : Type} {o : Options}

/-- How the text of a value starts: a bracket, or a word. -/
def opener : Value → Option CodePoint
  | .str _ => some '"'
  | .list _ => some '['
  | .dict _ => some '{'
  | _ => none

/-- The value can be written in the options given, and they write no infinities. -/
def Writable (E : Type) (o : Options) (v : Value) : Prop := (unwritable o v : Option (Exc E)) = none

theorem floatText_eq {x : PyFloat} (strict : o.allowNan = false) (writable : Writable E o (.float x)) :
    floatText x = x.repr ∧ ∃ m e, Str.floatNumber? x.repr = some (.finite m e) := by
  have read : Str.floatNumber? x.repr = some x.number := (Option.some_get x.readable).symm
  unfold Writable unwritable at writable
  cases shape : x.number with
  | finite m e =>
    rw [shape] at read
    refine ⟨?_,m,e,read⟩
    have finite : ∀ text n, Str.floatNumber? text = some n → n ≠ .finite m e → x.repr ≠ text := by
      intro text n other differs same
      rw [same,other] at read
      exact differs (Option.some.inj read)
    unfold floatText
    rw [if_neg (finite "nan" .nan rfl (by simp)),if_neg (finite "inf" (.infinite false) rfl (by simp)),
      if_neg (finite "-inf" (.infinite true) rfl (by simp))]
  | infinite negative => simp [shape,strict] at writable
  | nan => simp [shape,strict] at writable

/-- The text of a value that is neither text nor a container is one word. -/
theorem render_word {v : Value} (strict : o.allowNan = false) (writable : Writable E o v) (word : opener v = none) :
    render o v ≠ [] ∧ ∀ c ∈ render o v, isWordPoint c = true := by
  have letters : ∀ text : String, (Str.lit text).all isWordPoint = true → ∀ c ∈ Str.lit text, isWordPoint c = true :=
    fun text all => List.all_eq_true.mp all
  cases v with
  | null => exact ⟨by simp [render,Str.lit],letters "null" (by decide)⟩
  | bool b =>
    cases b with
    | true => exact ⟨by simp [render,Str.lit],letters "true" (by decide)⟩
    | false => exact ⟨by simp [render,Str.lit],letters "false" (by decide)⟩
  | int n =>
    refine ⟨?_,isWordPoint_of_mem_text⟩
    rw [render,Decimal.text]
    split
    · simp
    · exact Decimal.natural_ne_nil _
  | float x =>
    obtain ⟨plain,m,e,read⟩ := floatText_eq strict writable
    obtain ⟨letters,mark⟩ := isWordPoint_of_float read
    rw [render,plain]
    refine ⟨?_,letters⟩
    intro empty
    simp [empty] at mark
  | str s => cases word
  | list items => cases word
  | dict members => cases word
  | other kind repr json => cases writable

/-- Which kind of word a text is. -/
def wordKind (s : Str) : Nat :=
  if s = "null" then 0 else if s = "true" then 1 else if s = "false" then 2
  else if (Str.floatNumber? s).isSome then 3 else 4

def kindOf : Value → Nat
  | .null => 0
  | .bool true => 1
  | .bool false => 2
  | .float _ => 3
  | _ => 4

theorem wordKind_text (n : Int) : wordKind (Decimal.text n) = 4 := by
  have letter : ∀ c ∈ Decimal.text n, c.isDigit = true ∨ c = CodePoint.ofChar '-' := by
    intro c member
    unfold Decimal.text at member
    split at member
    next =>
      rcases List.mem_cons.mp member with rfl | inside
      · exact Or.inr rfl
      · exact Or.inl (Decimal.isDigit_of_mem_natural inside)
    next => exact Or.inl (Decimal.isDigit_of_mem_natural member)
  have other : ∀ (text : String) (c : Char), c ∈ text.toList → (CodePoint.ofChar c).isDigit = false → c ≠ '-' →
      Decimal.text n ≠ Str.lit text := by
    intro text c member noDigit noSign same
    rcases letter (CodePoint.ofChar c) (same ▸ List.mem_map.mpr ⟨c,member,rfl⟩) with digit | sign
    · rw [noDigit] at digit
      cases digit
    · exact noSign (CodePoint.ofChar_injective sign)
  have noFloat : Str.floatNumber? (Decimal.text n) = none := by
    cases read : Str.floatNumber? (Decimal.text n) with
    | none => rfl
    | some x =>
      rcases floatNumber?_eq_some read with (word | word | word) | ⟨_,point | exponent⟩
      · exact absurd word (other "nan" 'n' (by decide) (by decide) (by decide))
      · exact absurd word (other "inf" 'i' (by decide) (by decide) (by decide))
      · exact absurd word (other "-inf" 'i' (by decide) (by decide) (by decide))
      · rcases letter _ point with digit | sign
        · exact absurd digit (by decide)
        · exact absurd sign (by decide)
      · rcases letter _ exponent with digit | sign
        · exact absurd digit (by decide)
        · exact absurd sign (by decide)
  unfold wordKind
  rw [if_neg (other "null" 'n' (by decide) (by decide) (by decide)),
    if_neg (other "true" 't' (by decide) (by decide) (by decide)),
    if_neg (other "false" 'f' (by decide) (by decide) (by decide)),noFloat]
  rfl

theorem wordKind_render {v : Value} (strict : o.allowNan = false) (writable : Writable E o v) (word : opener v = none) :
    wordKind (render o v) = kindOf v := by
  cases v with
  | null => rfl
  | bool b => cases b <;> rfl
  | int n => exact wordKind_text n
  | float x =>
    obtain ⟨plain,m,e,read⟩ := floatText_eq strict writable
    have differs : ∀ text, Str.floatNumber? text = none → x.repr ≠ text := by
      intro text unread same
      rw [same,unread] at read
      cases read
    rw [render,plain,wordKind,if_neg (differs "null" (by decide)),if_neg (differs "true" (by decide)),
      if_neg (differs "false" (by decide)),read]
    rfl
  | str s => cases word
  | list items => cases word
  | dict members => cases word
  | other kind repr json => cases writable

theorem render_word_injective {v w : Value} (strict : o.allowNan = false) (writable : Writable E o v)
    (other : Writable E o w) (word : opener v = none) (otherWord : opener w = none)
    (same : render o v = render o w) : v = w := by
  have kinds := congrArg wordKind same
  rw [wordKind_render strict writable word,wordKind_render strict other otherWord] at kinds
  cases v with
  | null => cases w with
    | null => rfl
    | bool b => cases b <;> cases kinds
    | _ => cases kinds
  | bool b => cases b <;> cases w with
    | bool c => cases c <;> first | rfl | cases kinds
    | _ => cases kinds
  | int n => cases w with
    | int m => exact congrArg Value.int (Decimal.text_injective same)
    | null => cases kinds
    | bool b => cases b <;> cases kinds
    | float x => cases kinds
    | other kind repr json => cases other
    | _ => cases otherWord
  | float x => cases w with
    | float y =>
      rw [render,render,(floatText_eq strict writable).1,(floatText_eq strict other).1] at same
      exact congrArg Value.float (PyFloat.repr_injective same)
    | bool b => cases b <;> cases kinds
    | _ => cases kinds
  | str s => cases word
  | list items => cases word
  | dict members => cases word
  | other kind repr json => cases writable

/-- The separators `(",", ":")`, and no infinities. -/
structure Options.Compact (o : Options) : Prop where
  items : o.itemSeparator = [CodePoint.ofChar ',']
  keys : o.keySeparator = [CodePoint.ofChar ':']
  strict : o.allowNan = false

theorem renderList_eq_map (items : List Value) : renderList o items = items.map (render o) := by
  induction items with
  | nil => rfl
  | cons item rest ih => rw [renderList,ih,List.map_cons]

def renderMember (o : Options) (m : Str × Value) : Str := quoted m.1 ++ o.keySeparator ++ render o m.2

theorem renderMembers_eq_map (members : Dict) : renderMembers o members = members.map (renderMember o) := by
  induction members with
  | nil => rfl
  | cons m rest ih =>
    rw [renderMembers,ih]
    rfl

/-- What `json.dumps` asks of a value that is no container. -/
def leafWritable (o : Options) : Value → Bool
  | .int n => Decimal.printable n
  | .float x => o.allowNan || match x.number with | .finite _ _ => true | _ => false
  | .other _ _ _ => false
  | _ => true

theorem writable_list {items : List Value} : Writable E o (.list items) ↔ ∀ v ∈ items, Writable E o v := by
  unfold Writable
  rw [unwritable]
  induction items with
  | nil => simp [unwritableList]
  | cons v rest ih => rw [unwritableList,Option.or_eq_none_iff,List.forall_mem_cons,ih]

theorem writable_dict {members : Dict} : Writable E o (.dict members) ↔ ∀ m ∈ members, Writable E o m.2 := by
  unfold Writable
  rw [unwritable]
  induction members with
  | nil => simp [unwritableMembers]
  | cons m rest ih => rw [unwritableMembers,Option.or_eq_none_iff,List.forall_mem_cons,ih]

theorem writable_iff {v : Value} : Writable E o v ↔ v.every (leafWritable o) (fun _ => true) = true := by
  induction v using Value.induct with
  | list items ih =>
    rw [writable_list,Value.every_list]
    exact forall₂_congr ih
  | dict members ih =>
    rw [writable_dict,Value.every_dict]
    exact forall₂_congr (fun m member => by rw [ih m member]; simp)
  | int n =>
    simp only [Writable,unwritable,Value.every,leafWritable]
    split <;> simp_all
  | float x =>
    simp only [Writable,unwritable,Value.every,leafWritable]
    cases x.number <;> cases o.allowNan <;> simp
  | other kind repr json ih => simp [Writable,unwritable,Value.every,leafWritable]
  | _ => simp [Writable,unwritable,Value.every,leafWritable]

theorem writable_sorted {v : Value} : Writable E o v.sorted ↔ Writable E o v := by
  rw [writable_iff,writable_iff,Value.every_sorted]
  intro kind repr json
  rfl

theorem render_start {v : Value} (strict : o.allowNan = false) (writable : Writable E o v) :
    ∃ c rest, render o v = c::rest ∧ match opener v with
      | some bracket => c = bracket
      | none => isWordPoint c = true := by
  cases word : opener v with
  | some bracket =>
    cases v with
    | str s => cases word; exact ⟨_,_,rfl,rfl⟩
    | list items => cases word; exact ⟨_,_,rfl,rfl⟩
    | dict members => cases word; exact ⟨_,_,rfl,rfl⟩
    | _ => cases word
  | none =>
    obtain ⟨filled,letters⟩ := render_word strict writable word
    obtain ⟨c,rest,shape⟩ := List.exists_cons_of_ne_nil filled
    exact ⟨c,rest,shape,letters c (by simp [shape])⟩

theorem opener_stops {v : Value} {bracket : CodePoint} (opens : opener v = some bracket) :
    isWordPoint bracket = false ∧ bracket ≠ CodePoint.ofChar ']' ∧ bracket ≠ CodePoint.ofChar '\x7d' := by
  cases v with
  | str s => cases opens; decide
  | list items => cases opens; decide
  | dict members => cases opens; decide
  | _ => cases opens

/-- Values whose texts start alike are of one kind. -/
theorem opener_eq {v w : Value} {r s : Str} (strict : o.allowNan = false) (writable : Writable E o v)
    (other : Writable E o w) (same : render o v ++ r = render o w ++ s) : opener v = opener w := by
  obtain ⟨c,rest,first,kind⟩ := render_start strict writable
  obtain ⟨d,tail,second,sort⟩ := render_start strict other
  rw [first,second] at same
  obtain ⟨rfl,_⟩ := List.cons.inj same
  cases left : opener v with
  | none =>
    cases right : opener w with
    | none => rfl
    | some bracket =>
      rw [left] at kind
      rw [right] at sort
      have stop := (opener_stops right).1
      rw [← sort,kind] at stop
      cases stop
  | some bracket =>
    rw [left] at kind
    cases right : opener w with
    | none =>
      rw [right] at sort
      have stop := (opener_stops left).1
      rw [← kind,sort] at stop
      cases stop
    | some closing =>
      rw [right] at sort
      rw [← kind,← sort]

theorem word_determined {v : Value} (strict : o.allowNan = false) (writable : Writable E o v) (word : opener v = none) :
    Determined stops (render o) (Writable E o) v := by
  intro w other r rest ends stopped same
  have otherWord : opener w = none := by rw [← opener_eq strict writable other same,word]
  have plain : ∀ {u : Value}, Writable E o u → opener u = none → ∀ c ∈ render o u, stops c = false := by
    intro u good isWord c member
    simp [stops,(render_word strict good isWord).2 c member]
  obtain ⟨text,tail⟩ := word_cancel (plain writable word) (plain other otherWord) ends stopped same
  exact ⟨render_word_injective strict writable other word otherWord text,tail⟩

variable (compact : o.Compact)
include compact

theorem member_determined {m : Str × Value} (value : Determined stops (render o) (Writable E o) m.2) :
    Determined stops (renderMember o) (fun n => Writable E o n.2) m := by
  intro n good r s ends stopped same
  simp only [renderMember,compact.keys,List.append_assoc,List.cons_append,List.nil_append] at same
  obtain ⟨key,rest⟩ := quoted_cancel same
  obtain ⟨content,tail⟩ := value n.2 good r s ends stopped (List.cons.inj rest).2
  exact ⟨Prod.ext key content,tail⟩

omit compact in
theorem member_start (m : Str × Value) : ∃ c rest, renderMember o m = c::rest ∧ c ≠ CodePoint.ofChar '\x7d' :=
  ⟨_,_,rfl,by decide⟩

/-- No other writable value has its text where the text of `v` stands. -/
theorem render_determined {v : Value} (writable : Writable E o v) :
    Determined stops (render o) (Writable E o) v := by
  induction v using Value.induct with
  | str s =>
    intro w other r rest ends stopped same
    have kind := opener_eq compact.strict writable other same
    cases w with
    | str t =>
      obtain ⟨rfl,tail⟩ := quoted_cancel same
      exact ⟨rfl,tail⟩
    | _ => cases kind
  | list items ih =>
    intro w other r rest ends stopped same
    have kind := opener_eq compact.strict writable other same
    cases w with
    | list others =>
      rw [writable_list] at writable other
      simp only [render,renderList_eq_map,Str.join,compact.items,List.cons_append,List.append_assoc,List.nil_append,
        List.cons.injEq,true_and] at same
      have starts : ∀ v, Writable E o v → ∃ c tail, render o v = c::tail ∧ c ≠ CodePoint.ofChar ']' := by
        intro v good
        obtain ⟨c,tail,first,sort⟩ := render_start compact.strict good
        refine ⟨c,tail,first,?_⟩
        cases opens : opener v with
        | some bracket =>
          rw [opens] at sort
          rw [sort]
          exact (opener_stops opens).2.1
        | none =>
          rw [opens] at sort
          rintro rfl
          exact absurd sort (by decide)
      obtain ⟨rfl,tail⟩ := glue_cancel (by decide) (by decide) (by decide)
        (fun v member => ih v member (writable v member)) writable other starts same
      exact ⟨rfl,tail⟩
    | _ => cases kind
  | dict members ih =>
    intro w other r rest ends stopped same
    have kind := opener_eq compact.strict writable other same
    cases w with
    | dict others =>
      rw [writable_dict] at writable other
      simp only [render,renderMembers_eq_map,Str.join,compact.items,List.cons_append,List.append_assoc,List.nil_append,
        List.cons.injEq,true_and] at same
      obtain ⟨rfl,tail⟩ := glue_cancel (by decide) (by decide) (by decide)
        (fun m member => member_determined compact (ih m member (writable m member))) writable other
        (fun m _ => member_start m) same
      exact ⟨rfl,tail⟩
    | _ => cases kind
  | other kind repr json ih => cases writable
  | null => exact word_determined compact.strict writable rfl
  | bool b => exact word_determined compact.strict writable rfl
  | int n => exact word_determined compact.strict writable rfl
  | float x => exact word_determined compact.strict writable rfl

/-- The compact text determines the value. -/
theorem render_injective {v w : Value} (writable : Writable E o v) (other : Writable E o w)
    (same : render o v = render o w) : v = w :=
  (render_determined compact writable w other [] [] Ends.nil Ends.nil (by rw [same])).1

theorem dumps_inj {v w : Value} {text : Str} (first : (dumps o v : Except (Exc E) Str) = .ok text)
    (second : (dumps o w : Except (Exc E) Str) = .ok text) : v = w := by
  unfold dumps at first second
  split at first
  next => cases first
  next writable =>
    split at second
    next => cases second
    next other =>
      cases first
      exact render_injective compact writable other (Except.ok.inj second).symm

end Values

section Scalar

theorem scalar_of_words {s : Str} (letters : ∀ c ∈ s, isWordPoint c = true) : s.scalar = true := by
  rw [Str.scalar,List.all_eq_true]
  intro c member
  have word := letters c member
  simp only [isWordPoint,CodePoint.isAlnum,CodePoint.isAlpha,CodePoint.isUpper,CodePoint.isLower,CodePoint.isDigit,
    CodePoint.between,Bool.or_eq_true,Bool.and_eq_true,decide_eq_true_eq,beq_iff_eq] at word
  have low : c.val < 0x80 := by
    rcases word with (((((upper | lower) | digit) | rfl) | rfl) | rfl)
    · omega
    · omega
    · omega
    · decide
    · decide
    · decide
  simp only [CodePoint.isSurrogate,CodePoint.between,Bool.not_eq_true',Bool.and_eq_false_iff,decide_eq_false_iff_not]
  omega

theorem scalar_control {c : CodePoint} (low : c.val < 0x20) :
    Str.scalar [hexDigit (c.val / 16),hexDigit (c.val % 16)] = true ∧ c.isSurrogate = false := by
  have digit : ∀ n : Fin 16, Str.scalar [hexDigit n.val] = true := by decide
  constructor
  · have first := digit ⟨c.val / 16,by omega⟩
    have second := digit ⟨c.val % 16,by omega⟩
    simp only [Str.scalar,List.all_cons,List.all_nil,Bool.and_true] at first second ⊢
    rw [first,second]
    rfl
  · simp only [CodePoint.isSurrogate,CodePoint.between,Bool.and_eq_false_iff,decide_eq_false_iff_not]
    omega

theorem scalar_escapePoint (c : CodePoint) : Str.scalar (escapePoint c) = !c.isSurrogate := by
  unfold escapePoint
  split
  next same => rw [same]; rfl
  next =>
    split
    next same => rw [same]; rfl
    next =>
      split
      next same => rw [same]; rfl
      next =>
        split
        next same => rw [same]; rfl
        next =>
          split
          next same => rw [same]; rfl
          next =>
            split
            next same => rw [show c = Fin.ofNat _ 0x08 from Fin.ext same]; rfl
            next =>
              split
              next same => rw [show c = Fin.ofNat _ 0x0C from Fin.ext same]; rfl
              next =>
                split
                next low =>
                  obtain ⟨digits,plain⟩ := scalar_control low
                  rw [Str.scalar_append,digits,plain]
                  rfl
                next => simp [Str.scalar]

theorem scalar_quoted (s : Str) : Str.scalar (quoted s) = s.scalar := by
  have body : Str.scalar (s.flatMap escapePoint) = s.scalar := by
    induction s with
    | nil => rfl
    | cons c rest ih =>
      rw [List.flatMap_cons,Str.scalar_append,ih,scalar_escapePoint]
      rfl
  have quote : Str.scalar [CodePoint.ofChar '"'] = true := by decide
  rw [quoted,← List.singleton_append,Str.scalar_append,Str.scalar_append,body,quote]
  simp

theorem scalar_glue {sep : Str} (plain : sep.scalar = true) (pieces : List Str) :
    Str.scalar (Split.glue sep pieces) = true ↔ ∀ piece ∈ pieces, piece.scalar = true := by
  cases pieces with
  | nil => simp [Split.glue,Str.scalar]
  | cons piece pieces =>
    have tail : Str.scalar (pieces.flatMap (fun next => sep ++ next)) = true ↔ ∀ next ∈ pieces, next.scalar = true := by
      induction pieces with
      | nil => simp [Str.scalar]
      | cons next rest ih =>
        rw [List.flatMap_cons,Str.scalar_append,Str.scalar_append,plain,Bool.true_and,Bool.and_eq_true,ih,
          List.forall_mem_cons]
    rw [glue_cons,Str.scalar_append,Bool.and_eq_true,tail,List.forall_mem_cons]

theorem scalar_bracketed (opening closing : Char) (plain : Str.scalar [CodePoint.ofChar opening] = true)
    (other : Str.scalar [CodePoint.ofChar closing] = true) (s : Str) :
    Str.scalar (CodePoint.ofChar opening :: (s ++ [CodePoint.ofChar closing])) = s.scalar := by
  rw [← List.singleton_append,Str.scalar_append,Str.scalar_append,plain,other]
  simp

variable {E : Type} {o : Options}

/-- The text holds a lone surrogate only where the value does. -/
theorem scalar_render_of_separators (comma : o.itemSeparator.scalar = true) (colon : o.keySeparator.scalar = true)
    {v : Value} (writable : Writable E o v) : Str.scalar (render o v) = true ↔ v.scalar = true := by
  have words : ∀ text : String, (Str.lit text).all isWordPoint = true → Str.scalar (Str.lit text) = true :=
    fun text all => scalar_of_words (List.all_eq_true.mp all)
  induction v using Value.induct with
  | str s => rw [render,scalar_quoted,Value.scalar,Value.every]
  | list items ih =>
    rw [writable_list] at writable
    rw [Value.scalar,Value.every_list,render,scalar_bracketed _ _ (by decide) (by decide),Str.join,renderList_eq_map,
      scalar_glue comma,List.forall_mem_map]
    exact forall₂_congr (fun v member => ih v member (writable v member))
  | dict members ih =>
    rw [writable_dict] at writable
    rw [Value.scalar,Value.every_dict,render,scalar_bracketed _ _ (by decide) (by decide),Str.join,renderMembers_eq_map,
      scalar_glue comma,List.forall_mem_map]
    refine forall₂_congr (fun m member => ?_)
    rw [renderMember,Str.scalar_append,Str.scalar_append,scalar_quoted,colon,Bool.and_true,Bool.and_eq_true]
    exact and_congr Iff.rfl (ih m member (writable m member))
  | other kind repr json => cases writable
  | null => simp [render,words "null" (by decide),Value.scalar,Value.every]
  | bool b => cases b <;> simp [render,words "true" (by decide),words "false" (by decide),Value.scalar,Value.every]
  | int n => simp [render,scalar_of_words isWordPoint_of_mem_text,Value.scalar,Value.every]
  | float x => simp [render,scalar_of_words (isWordPoint_floatText x),Value.scalar,Value.every]

theorem scalar_render (compact : o.Compact) {v : Value} (writable : Writable E o v) :
    Str.scalar (render o v) = true ↔ v.scalar = true := by
  refine scalar_render_of_separators ?_ ?_ writable
  · rw [compact.items]
    decide
  · rw [compact.keys]
    decide

end Scalar

end Python.Json
