import OpsAgent.Lib.JsonNumber

/-!
# JSON texts

The compact text that Go's `encoding/json` writes, and a parser for all JSON
texts up to a limit on how deep arrays and objects are nested.
-/

namespace OpsAgent.Lib
open List Option

inductive Json where
  | null
  | bool (b : Bool)
  | num (n : JsonNumber)
  | str (s : String)
  | arr (elems : List Json)
  | obj (members : List (String × Json))

namespace Json

def hexDigit (n : Nat) : Char := "0123456789abcdef".toList.getD n '0'
def hex4 (n : Nat) : List Char :=
  [hexDigit (n / 4096 % 16),hexDigit (n / 256 % 16),hexDigit (n / 16 % 16),hexDigit (n % 16)]
def shortEscapes : List (Char × Char) :=
  [('"', '"'),('\\', '\\'),('\x08', 'b'),('\x0c', 'f'),('\n', 'n'),('\r', 'r'),('\t', 't')]

/-- Control characters are escaped, and those that are special in HTML or in
JavaScript. -/
def needsEscape (c : Char) : Bool :=
  c < ' ' || ['<', '>', '\u2028', '\u2029', '&'].contains c
def escape (c : Char) : List Char :=
  match shortEscapes.lookup c with
  | some e => ['\\',e]
  | none => if needsEscape c then '\\' :: 'u' :: hex4 c.toNat else [c]
def quote (s : String) : List Char := '"' :: (s.toList.flatMap escape++['"'])

mutual

def print : Json → List Char
  | .null => ['n', 'u', 'l', 'l']
  | .bool true => ['t', 'r', 'u', 'e']
  | .bool false => ['f', 'a', 'l', 's', 'e']
  | .num n => n.text
  | .str s => quote s
  | .arr elems => '[' :: (printElems elems++[']'])
  | .obj members => '\x7b' :: (printMembers members++['\x7d'])

def printElems : List Json → List Char
  | [] => []
  | [j] => print j
  | j::k::js => print j ++ ',' :: printElems (k::js)
def printMembers : List (String × Json) → List Char
  | [] => []
  | [(k,j)] => quote k ++ ':' :: print j
  | (k,j)::m::ms => quote k ++ ':' :: (print j ++ ',' :: printMembers (m::ms))

end

def readNumber (s : List Char) : Option (JsonNumber × List Char) :=
  match h : takeNumber s with
  | some (text,rest) => some (⟨text,takeNumber_self h⟩,rest)
  | none => none
def isWhitespace (c : Char) : Bool := [' ', '\t', '\n', '\r'].contains c
def skip (s : List Char) : List Char := s.dropWhile isWhitespace
def hexValue (c : Char) : Option Nat :=
  if isDigit c then some (c.toNat - '0'.toNat)
  else if 'a' ≤ c.toLower ∧ c.toLower ≤ 'f' then some (c.toLower.toNat - 'a'.toNat+10)
  else none

def hex4Value (a b c d : Char) : Option Nat := do
  let a ← hexValue a
  let b ← hexValue b
  let c ← hexValue c
  let d ← hexValue d
  some (a*4096+b*256+c*16+d)

def unescape (c : Char) : Option Char :=
  ([('"', '"'),('\\', '\\'),('/', '/'),('b', '\x08'),('f', '\x0c'),('n', '\n'),('r', '\r'),
    ('t', '\t')] : List (Char × Char)).lookup c

/-- The code points of a string up to the closing quote. The escape of a character
outside the first plane is a pair of surrogates. -/
def stringCodes : List Char → Option (List Nat × List Char)
  | [] => none
  | '\\' :: 'u' :: a::b::c::d::s =>
    match hex4Value a b c d, stringCodes s with
    | some n, some (codes,rest) => some (n::codes,rest)
    | _, _ => none
  | '\\' :: c::s =>
    match unescape c, stringCodes s with
    | some e, some (codes,rest) => some (e.toNat::codes,rest)
    | _, _ => none
  | c::s =>
    if c = '"' then some ([],s)
    else if c < ' ' ∨ c = '\\' then none
    else match stringCodes s with
      | some (codes,rest) => some (c.toNat::codes,rest)
      | none => none

def isSurrogate (n : Nat) : Bool := 0xd800≤n&&n<0xe000
def charOf (n : Nat) : Char := if isSurrogate n then '\ufffd' else Char.ofNat n

def joinSurrogates : List Nat → List Char
  | [] => []
  | [n] => [charOf n]
  | n::m::codes =>
    if isSurrogate n ∧ n<0xdc00 ∧ 0xdc00 ≤ m ∧ m<0xe000 then
      Char.ofNat (0x10000+(n-0xd800)*0x400+(m-0xdc00))::joinSurrogates codes
    else charOf n::joinSurrogates (m::codes)

def takeString (s : List Char) : Option (String × List Char) :=
  (stringCodes s).map fun r => (String.ofList (joinSurrogates r.1),r.2)
def takeWord (word s : List Char) : Option (List Char) :=
  if s.take word.length=word then some (s.drop word.length) else none

mutual

def value (fuel limit : Nat) (s : List Char) : Option (Json × List Char) :=
  match fuel with
  | 0 => none
  | fuel+1 => match skip s with
    | [] => none
    | c::s =>
      if c = '"' then (takeString s).map fun r => (.str r.1,r.2)
      else if c = '[' then
        match limit with
        | 0 => none
        | limit+1 => match skip s with
          | ']' :: s => some (.arr [],s)
          | s => (elems fuel limit s).map fun r => (.arr r.1,r.2)
      else if c = '\x7b' then
        match limit with
        | 0 => none
        | limit+1 => match skip s with
          | '\x7d' :: s => some (.obj [],s)
          | s => (members fuel limit s).map fun r => (.obj r.1,r.2)
      else if c = 'n' then (takeWord ['u', 'l', 'l'] s).map fun r => (.null,r)
      else if c = 't' then (takeWord ['r', 'u', 'e'] s).map fun r => (.bool true,r)
      else if c = 'f' then (takeWord ['a', 'l', 's', 'e'] s).map fun r => (.bool false,r)
      else (readNumber (c::s)).map fun r => (.num r.1,r.2)

def elems (fuel limit : Nat) (s : List Char) : Option (List Json × List Char) :=
  match fuel with
  | 0 => none
  | fuel+1 => match value fuel limit s with
    | none => none
    | some (j,s) => match skip s with
      | ',' :: s => (elems fuel limit s).map fun r => (j::r.1,r.2)
      | ']' :: s => some ([j],s)
      | _ => none

def members (fuel limit : Nat) (s : List Char) : Option (List (String × Json) × List Char) :=
  match fuel with
  | 0 => none
  | fuel+1 => match skip s with
    | '"' :: s => match takeString s with
      | none => none
      | some (k,s) => match skip s with
        | ':' :: s => match value fuel limit s with
          | none => none
          | some (j,s) => match skip s with
            | ',' :: s => (members fuel limit s).map fun r => ((k,j)::r.1,r.2)
            | '\x7d' :: s => some ([(k,j)],s)
            | _ => none
        | _ => none
    | _ => none

end

def parse (limit : Nat) (s : List Char) : Option Json :=
  match value (2*s.length) limit s with
  | some (j,rest) => if skip rest=[] then some j else none
  | none => none

theorem hexValue_hexDigit {n : Nat} (h : n<16) : hexValue (hexDigit n)=some n := by
  have hall : ∀ n<16, hexValue (hexDigit n)=some n := by decide +kernel
  exact hall n h

theorem hex4Value_hex4 {n : Nat} (h : n<65536) :
    hex4Value (hexDigit (n / 4096 % 16)) (hexDigit (n / 256 % 16)) (hexDigit (n / 16 % 16))
      (hexDigit (n % 16))=some n := by
  have hmod : ∀ m, m % 16<16 := fun m => Nat.mod_lt m (by decide)
  simp only [hex4Value,hexValue_hexDigit (hmod _),bind_eq_bind,bind_some,some.injEq]
  omega

variable {c d : Char} {rest s : List Char}

theorem needsEscape_lt (h : needsEscape c) : c.toNat<65536 := by
  simp only [needsEscape,Bool.or_eq_true,decide_eq_true_eq,contains_iff_mem,mem_cons,
    not_mem_nil,or_false] at h
  rcases h with h | rfl | rfl | rfl | rfl | rfl
  · have hlt : c.toNat < ' '.toNat := h
    exact Nat.lt_trans hlt (by decide)
  all_goals decide

theorem mem_shortEscapes {e : Char} (h : shortEscapes.lookup c=some e) : (c,e)∈shortEscapes := by
  obtain ⟨l₁,l₂,hsplit,-⟩ := lookup_eq_some_iff.mp h
  rw [hsplit]
  simp

theorem stringCodes_escape (c : Char) (s : List Char) :
    stringCodes (escape c++s)=(stringCodes s).map fun r => (c.toNat::r.1,r.2) := by
  rw [escape]
  split
  next e he =>
    have hpair:=mem_shortEscapes he
    have hall : ∀ p∈shortEscapes, unescape p.2=some p.1 ∧ p.2 ≠ 'u' := by decide +kernel
    obtain ⟨hback,hu⟩ := hall (c,e) hpair
    cases hs : stringCodes s <;> simp [stringCodes,hback,hu,hs]
  next hnone =>
    split
    next hesc =>
      have hhex:=hex4Value_hex4 (needsEscape_lt hesc)
      simp [hex4]
      cases hs : stringCodes s <;> simp [stringCodes,hhex,hs]
    next hplain =>
      have hne : ∀ p∈shortEscapes, c≠p.1 := by simpa [lookup_eq_none_iff] using hnone
      have hquote : c ≠ '"' := hne ('"', '"') (by decide)
      have hslash : c ≠ '\\' := hne ('\\', '\\') (by decide)
      have hctrl : ¬ c < ' ' := by
        intro hlt
        exact hplain (by simp [needsEscape,hlt])
      cases hs : stringCodes s <;> simp [stringCodes,hs,hquote,hslash,hctrl]

theorem stringCodes_flatMap (cs rest : List Char) :
    stringCodes (cs.flatMap escape ++ '"' :: rest)=some (cs.map Char.toNat,rest) := by
  induction cs with
  | nil => rfl
  | cons c cs ih =>
    rw [flatMap_cons,append_assoc,stringCodes_escape,ih]
    rfl

theorem isSurrogate_toNat (c : Char) : isSurrogate c.toNat=false := by
  have hvalid:=c.valid
  simp only [isSurrogate,Bool.and_eq_false_iff,decide_eq_false_iff_not]
  rcases hvalid with h | h
  · left
    have : c.toNat<0xd800 := h
    omega
  · right
    have : 0xdfff<c.toNat := h.1
    omega

theorem charOf_toNat (c : Char) : charOf c.toNat=c := by
  rw [charOf,isSurrogate_toNat,Char.ofNat_toNat]
  rfl

theorem joinSurrogates_toNat (cs : List Char) : joinSurrogates (cs.map Char.toNat)=cs := by
  induction cs with
  | nil => rfl
  | cons c cs ih =>
    cases cs with
    | nil => simp [joinSurrogates,charOf_toNat]
    | cons d cs =>
      rw [map_cons,map_cons,joinSurrogates,if_neg (by simp [isSurrogate_toNat]),
        charOf_toNat,← map_cons,ih]

theorem takeString_quote (s : String) (rest : List Char) :
    takeString (s.toList.flatMap escape ++ '"' :: rest)=some (s,rest) := by
  rw [takeString,stringCodes_flatMap]
  simp [joinSurrogates_toNat]

mutual

def within : Json → Nat → Bool
  | .arr _, 0 => false
  | .arr elems, limit+1 => withinElems elems limit
  | .obj _, 0 => false
  | .obj members, limit+1 => withinMembers members limit
  | _, _ => true

def withinElems : List Json → Nat → Bool
  | [], _ => true
  | j::js, limit => within j limit&&withinElems js limit
def withinMembers : List (String × Json) → Nat → Bool
  | [], _ => true
  | (_,j)::ms, limit => within j limit&&withinMembers ms limit

end

variable (j : Json) (n : JsonNumber)

theorem readNumber_text (h : Avoids continues rest) : readNumber (n.text++rest)=some (n,rest) := by
  have htake:=takeNumber_append n.valid h
  rw [readNumber]
  split
  next text rest' heq =>
    cases htake.symm.trans heq
    rfl
  next heq =>
    cases htake.symm.trans heq

theorem number_head : ∃ c s, n.text=c::s ∧ (c = '-' ∨ isDigit c) := by
  have hvalid:=n.valid
  simp only [takeNumber,bind_eq_bind,bind_eq_some_iff] at hvalid
  obtain ⟨⟨i,r⟩,hi,-⟩ := hvalid
  cases htext : n.text with
  | nil =>
    rw [htext] at hi
    cases hi
  | cons c s =>
    refine ⟨c,s,rfl,?_⟩
    by_cases hc : c = '-'
    · exact .inl hc
    · right
      rw [htext,takeMinus,if_neg hc,takeInt] at hi
      split at hi
      next hzero =>
        rw [hzero]
        rfl
      next =>
        by_contra hdigit
        simp [takeDigits,hdigit] at hi

def starts (c : Char) : Bool := isDigit c||['-', '"', '[', '\x7b', 'n', 't', 'f'].contains c

theorem print_head : ∃ c s, print j=c::s ∧ starts c := by
  match j with
  | .null | .bool true | .bool false => exact ⟨_,_,rfl,rfl⟩
  | .num n =>
    obtain ⟨c,s,htext,hc⟩ := number_head n
    refine ⟨c,s,htext,?_⟩
    rcases hc with rfl | hc
    · rfl
    · simp [starts,hc]
  | .str s | .arr elems | .obj members => exact ⟨_,_,rfl,rfl⟩

theorem skip_of_starts (h : starts c) : skip (c::s)=c::s := by
  have hws : isWhitespace c=false := by
    by_contra hws
    simp only [isWhitespace,Bool.not_eq_false,contains_iff_mem,mem_cons,not_mem_nil,or_false] at hws
    rcases hws with rfl | rfl | rfl | rfl <;> exact absurd h (by decide)
  rw [skip,dropWhile_cons_of_neg (by simp [hws])]

theorem printElems_head (js : List Json) : ∃ c s, printElems (j::js)=c::s ∧ starts c := by
  obtain ⟨c,s,hprint,hc⟩ := print_head j
  cases js with
  | nil => exact ⟨c,s,by rw [printElems,hprint],hc⟩
  | cons k js => exact ⟨c,_,by rw [printElems,hprint]; rfl,hc⟩

variable {fuel limit : Nat}

theorem value_num
    (h : Avoids continues rest) : value (fuel+1) limit (n.text++rest)=some (.num n,rest) := by
  have hread:=readNumber_text n h
  obtain ⟨c,s,htext,hc⟩ := number_head n
  have hstarts : starts c := by
    rcases hc with rfl | hc
    · rfl
    · simp [starts,hc]
  have hother : ∀ d∈['"', '[', '\x7b', 'n', 't', 'f'], c≠d := by
    rintro d hd rfl
    revert hc
    simp only [mem_cons,not_mem_nil,or_false] at hd
    rcases hd with rfl | rfl | rfl | rfl | rfl | rfl <;> decide
  rw [htext,cons_append] at hread ⊢
  rw [value,skip_of_starts hstarts]
  change (if c = '"' then _ else if c = '[' then _ else if c = '\x7b' then _ else if c = 'n' then _
    else if c = 't' then _ else if c = 'f' then _ else _)=_
  rw [if_neg (hother _ (by decide)),if_neg (hother _ (by decide)),if_neg (hother _ (by decide)),
    if_neg (hother _ (by decide)),if_neg (hother _ (by decide)),if_neg (hother _ (by decide)),
    hread,map_some]

theorem value_str (s : String) : value (fuel+1) limit (quote s++rest)=some (.str s,rest) := by
  have htake:=takeString_quote s rest
  have htext : quote s++rest = '"' :: (s.toList.flatMap escape ++ '"' :: rest) := by simp [quote]
  rw [htext]
  simp [value,skip_of_starts (c := '"') rfl,htake]

theorem length_print_pos : 0<(print j).length := by
  obtain ⟨c,s,hprint,-⟩ := print_head j
  rw [hprint]
  exact Nat.succ_pos _
theorem skip_cons (h : isWhitespace c=false) : skip (c::s)=c::s := by
  rw [skip,dropWhile_cons_of_neg (by simp [h])]

theorem value_arr (hc : starts c) : value (fuel+1) (limit+1) ('[' :: c::s) =
      (elems fuel limit (c::s)).map fun r => (.arr r.1,r.2) := by
  have hclose : c ≠ ']' := by
    rintro rfl
    exact absurd hc (by decide)
  rw [value,skip_of_starts (c := '[') rfl]
  simp only [show ('[' : Char) ≠ '"' by decide,if_false,if_true,skip_of_starts hc]
  split
  next heq => exact absurd (cons.inj heq).1 hclose
  next => rfl

theorem value_obj : value (fuel+1) (limit+1) ('\x7b' :: '"' :: s) =
      (members fuel limit ('"' :: s)).map fun r => (.obj r.1,r.2) := by
  rw [value,skip_of_starts (c := '\x7b') rfl]
  simp [skip_of_starts (c := '"') rfl]
theorem printMembers_head (m : String × Json) (ms : List (String × Json)) :
    ∃ s, printMembers (m::ms) = '"' :: s := by
  cases ms with
  | nil | cons m' ms => exact ⟨_,rfl⟩

mutual

theorem value_print (j : Json) (fuel limit : Nat) (rest : List Char)
    (hfuel : 2*(print j).length≤fuel) (hrest : Avoids continues rest) :
    value fuel limit (print j++rest) = if within j limit then some (j,rest) else none := by
  have hpos:=length_print_pos j
  obtain ⟨fuel,rfl⟩ := Nat.exists_eq_succ_of_ne_zero (show fuel≠0 by omega)
  match j with
  | .null | .bool true | .bool false => simp [print,value,skip_of_starts,starts,takeWord,within]
  | .num n => simpa [within,print] using value_num n hrest
  | .str s => simpa [within,print] using value_str s
  | .arr [] =>
    cases limit with
    | zero => simp [print,printElems,value,skip_of_starts,starts,within]
    | succ limit => simp [print,printElems,value,within,withinElems,skip,isWhitespace]
  | .arr (k::ks) =>
    cases limit with
    | zero => simp [print,value,skip_of_starts,starts,within]
    | succ limit =>
      obtain ⟨c,s,hprint,hc⟩ := printElems_head k ks
      have hlen : (print (.arr (k::ks))).length=(printElems (k::ks)).length+2 := by simp [print]
      have hread:=elems_print (k::ks) fuel limit rest
        (cons_ne_nil k ks) (by omega)
      have htext : print (.arr (k::ks))++rest = '[' :: (printElems (k::ks) ++ ']' :: rest) := by
        simp [print]
      rw [htext]
      rw [hprint,cons_append] at hread ⊢
      rw [value_arr hc,hread,within]
      split <;> rfl
  | .obj [] =>
    cases limit with
    | zero => simp [print,printMembers,value,skip_of_starts,starts,within]
    | succ limit => simp [print,printMembers,value,within,withinMembers,skip,isWhitespace]
  | .obj (m::ms) =>
    cases limit with
    | zero => simp [print,value,skip_of_starts,starts,within]
    | succ limit =>
      obtain ⟨s,hprint⟩ := printMembers_head m ms
      have hlen : (print (.obj (m::ms))).length=(printMembers (m::ms)).length+2 := by simp [print]
      have hread:=members_print (m::ms) fuel limit rest
        (cons_ne_nil m ms) (by omega)
      have htext : print (.obj (m::ms))++rest =
          '\x7b' :: (printMembers (m::ms) ++ '\x7d' :: rest) := by simp [print]
      rw [htext]
      rw [hprint,cons_append] at hread ⊢
      rw [value_obj,hread,within]
      split <;> rfl

theorem elems_print (js : List Json) (fuel limit : Nat) (rest : List Char) (hne : js≠[])
    (hfuel : 2*(printElems js).length+1≤fuel) : elems fuel limit (printElems js ++ ']' :: rest) =
      if withinElems js limit then some (js,rest) else none := by
  obtain ⟨fuel,rfl⟩ := Nat.exists_eq_succ_of_ne_zero (show fuel≠0 by omega)
  match js with
  | [j] =>
    rw [printElems] at hfuel ⊢
    have hread:=value_print j fuel limit (']' :: rest) (by omega)
      (by intro c hc; cases hc; rfl)
    rw [elems,hread,withinElems,withinElems,Bool.and_true]
    by_cases hj : within j limit
    · simp only [if_pos hj,skip_cons (c := ']') rfl]
    · simp only [if_neg hj]
  | j::k::js =>
    have hlen : (printElems (j::k::js)).length =
        (print j).length+1+(printElems (k::js)).length := by
      simp [printElems]
      omega
    have hread:=value_print j fuel limit
      (',' :: (printElems (k::js) ++ ']' :: rest)) (by omega)
      (by intro c hc; cases hc; rfl)
    have hmore:=elems_print (k::js) fuel limit rest
      (cons_ne_nil k js) (by omega)
    have htext : printElems (j::k::js) ++ ']' :: rest =
        print j ++ ',' :: (printElems (k::js) ++ ']' :: rest) := by simp [printElems]
    rw [htext,elems,hread,withinElems]
    by_cases hj : within j limit
    · simp only [hj,if_true,skip_cons (c := ',') rfl,hmore,Bool.true_and]
      split <;> rfl
    · simp [hj]

theorem members_print (ms : List (String × Json)) (fuel limit : Nat) (rest : List Char)
    (hne : ms≠[]) (hfuel : 2*(printMembers ms).length+1≤fuel) :
    members fuel limit (printMembers ms ++ '\x7d' :: rest) =
      if withinMembers ms limit then some (ms,rest) else none := by
  obtain ⟨fuel,rfl⟩ := Nat.exists_eq_succ_of_ne_zero (show fuel≠0 by omega)
  match ms with
  | [(k,j)] =>
    have hlen : (printMembers [(k,j)]).length=(quote k).length+1+(print j).length := by
      simp [printMembers]
      omega
    have hread:=value_print j fuel limit ('\x7d' :: rest) (by omega)
      (by intro c hc; cases hc; rfl)
    have htext : printMembers [(k,j)] ++ '\x7d' :: rest = '"' ::
        (k.toList.flatMap escape ++ '"' :: ':' :: (print j ++ '\x7d' :: rest)) := by
      simp [printMembers,quote]
    rw [htext,members,skip_cons rfl]
    rw [withinMembers,withinMembers,Bool.and_true]
    simp only [takeString_quote,skip_cons (c := ':') rfl,hread]
    by_cases hj : within j limit
    · simp only [if_pos hj,skip_cons (c := '\x7d') rfl]
    · simp only [if_neg hj]
  | (k,j)::m::ms =>
    have hlen : (printMembers ((k,j)::m::ms)).length =
        (quote k).length+1+(print j).length+1+(printMembers (m::ms)).length := by
      simp [printMembers]
      omega
    have hread:=value_print j fuel limit
      (',' :: (printMembers (m::ms) ++ '\x7d' :: rest)) (by omega)
      (by intro c hc; cases hc; rfl)
    have hmore:=members_print (m::ms) fuel limit rest
      (cons_ne_nil m ms) (by omega)
    have htext : printMembers ((k,j)::m::ms) ++ '\x7d' :: rest = '"' ::
        (k.toList.flatMap escape ++ '"' :: ':' ::
          (print j ++ ',' :: (printMembers (m::ms) ++ '\x7d' :: rest))) := by
      simp [printMembers,quote]
    rw [htext,members,skip_cons rfl,withinMembers]
    simp only [takeString_quote,skip_cons (c := ':') rfl,hread]
    by_cases hj : within j limit
    · simp only [hj,if_true,skip_cons (c := ',') rfl,hmore,Bool.true_and]
      split <;> rfl
    · simp [hj]

end

theorem parse_print (limit : Nat) (hrest : skip rest=[]) (hstop : Avoids continues rest) :
    parse limit (print j++rest) = if within j limit then some j else none := by
  rw [parse,value_print j _ _ _ (by rw [length_append]; omega) hstop]
  cases within j limit with
  | false => rfl
  | true => simp [hrest]

def Reads (text : List Char) (j : Json) : Prop := ∃ limit, parse limit text=some j

mutual

theorem within_mono (j : Json) {m n : Nat} (hmn : m≤n) (h : within j m) : within j n := by
  match j, m, n with
  | .null, _, _ | .bool _, _, _ | .num _, _, _ | .str _, _, _ => rfl
  | .arr elems, m+1, n+1 => exact withinElems_mono elems (Nat.le_of_succ_le_succ hmn) h
  | .obj members, m+1, n+1 => exact withinMembers_mono members (Nat.le_of_succ_le_succ hmn) h

theorem withinElems_mono (js : List Json) {m n : Nat} (hmn : m≤n) (h : withinElems js m) :
    withinElems js n := by
  match js with
  | [] => rfl
  | j::js =>
    rw [withinElems,Bool.and_eq_true] at h ⊢
    exact ⟨within_mono j hmn h.1,withinElems_mono js hmn h.2⟩

theorem withinMembers_mono (ms : List (String × Json)) {m n : Nat} (hmn : m≤n)
    (h : withinMembers ms m) : withinMembers ms n := by
  match ms with
  | [] => rfl
  | (_,j)::ms =>
    rw [withinMembers,Bool.and_eq_true] at h ⊢
    exact ⟨within_mono j hmn h.1,withinMembers_mono ms hmn h.2⟩

end

mutual

theorem exists_within (j : Json) : ∃ limit, within j limit := by
  match j with
  | .null | .bool _ | .num _ | .str _ => exact ⟨0,rfl⟩
  | .arr elems =>
    obtain ⟨limit,h⟩ := exists_withinElems elems
    exact ⟨limit+1,h⟩
  | .obj members =>
    obtain ⟨limit,h⟩ := exists_withinMembers members
    exact ⟨limit+1,h⟩

theorem exists_withinElems (js : List Json) : ∃ limit, withinElems js limit := by
  match js with
  | [] => exact ⟨0,rfl⟩
  | j::js =>
    obtain ⟨m,hm⟩ := exists_within j
    obtain ⟨n,hn⟩ := exists_withinElems js
    refine ⟨max m n,?_⟩
    rw [withinElems,within_mono j (Nat.le_max_left m n) hm,
      withinElems_mono js (Nat.le_max_right m n) hn,Bool.and_self]

theorem exists_withinMembers (ms : List (String × Json)) : ∃ limit, withinMembers ms limit := by
  match ms with
  | [] => exact ⟨0,rfl⟩
  | (_,j)::ms =>
    obtain ⟨m,hm⟩ := exists_within j
    obtain ⟨n,hn⟩ := exists_withinMembers ms
    refine ⟨max m n,?_⟩
    rw [withinMembers,within_mono j (Nat.le_max_left m n) hm,
      withinMembers_mono ms (Nat.le_max_right m n) hn,Bool.and_self]

end

theorem reads_print : Reads (print j) j := by
  obtain ⟨limit,h⟩ := exists_within j
  have hparse:=@parse_print [] j limit rfl fun c hc => by cases hc
  rw [append_nil,if_pos h] at hparse
  exact ⟨limit,hparse⟩

theorem le_of_mem_escape (h : d∈escape c) : ' ' ≤ d := by
  have hshort : ∀ p∈shortEscapes, ' ' ≤ p.2 := by decide
  have hhex : ∀ n, ' ' ≤ hexDigit (n % 16) := by
    intro n
    have hall : ∀ m<16, ' ' ≤ hexDigit m := by decide
    exact hall (n % 16) (Nat.mod_lt n (by decide))
  rw [escape] at h
  split at h
  next e hlookup =>
    rcases mem_cons.mp h with rfl | h
    · decide
    · rw [mem_singleton.mp h]
      exact hshort (c,e) (mem_shortEscapes hlookup)
  next =>
    split at h
    next =>
      simp only [hex4,mem_cons,not_mem_nil,or_false] at h
      rcases h with rfl | rfl | rfl | rfl | rfl | rfl
      · decide
      · decide
      · exact hhex _
      · exact hhex _
      · exact hhex _
      · exact hhex _
    next hplain =>
      rw [mem_singleton.mp h]
      rw [needsEscape,Bool.or_eq_true,not_or] at hplain
      exact Char.not_lt.mp (by simpa using hplain.1)

theorem le_of_mem_quote {s : String} (h : d∈quote s) : ' ' ≤ d := by
  simp only [quote,mem_cons,mem_append,mem_flatMap,not_mem_nil,or_false] at h
  rcases h with rfl | ⟨c,-,hd⟩ | rfl
  · decide
  · exact le_of_mem_escape hd
  · decide

theorem le_of_mem_all (h : (s.all fun c => decide (' ' ≤ c))) (hd : d∈s) :
    ' ' ≤ d := of_decide_eq_true (all_eq_true.mp h d hd)

theorem le_of_mem_literal {n : JsonNumber} (h : d∈n.text) : ' ' ≤ d := by
  have hd:=takeNumber_chars n.valid d h
  rw [literalChar,Bool.or_eq_true] at hd
  rcases hd with hd | hd
  · rw [isDigit,Bool.and_eq_true,decide_eq_true_eq] at hd
    exact Char.le_trans (by decide) hd.1
  · exact le_of_mem_all (by decide) (contains_iff_mem.mp hd)

mutual

theorem le_of_mem_print (j : Json) {d : Char} (h : d∈print j) : ' ' ≤ d := by
  match j with
  | .null | .bool true | .bool false => exact le_of_mem_all (by decide) h
  | .num n => exact le_of_mem_literal h
  | .str s => exact le_of_mem_quote h
  | .arr elems =>
    simp only [print,mem_cons,mem_append,not_mem_nil,or_false] at h
    rcases h with rfl | h | rfl
    · decide
    · exact le_of_mem_printElems elems h
    · decide
  | .obj members =>
    simp only [print,mem_cons,mem_append,not_mem_nil,or_false] at h
    rcases h with rfl | h | rfl
    · decide
    · exact le_of_mem_printMembers members h
    · decide

theorem le_of_mem_printElems (js : List Json) {d : Char} (h : d∈printElems js) : ' ' ≤ d := by
  match js with
  | [] => cases h
  | [j] => exact le_of_mem_print j h
  | j::k::js =>
    rw [printElems,mem_append,mem_cons] at h
    rcases h with h | rfl | h
    · exact le_of_mem_print j h
    · decide
    · exact le_of_mem_printElems (k::js) h

theorem le_of_mem_printMembers (ms : List (String × Json)) {d : Char} (h : d∈printMembers ms) :
    ' ' ≤ d := by
  match ms with
  | [] => cases h
  | [(k,j)] =>
    rw [printMembers,mem_append,mem_cons] at h
    rcases h with h | rfl | h
    · exact le_of_mem_quote h
    · decide
    · exact le_of_mem_print j h
  | (k,j)::m::ms =>
    rw [printMembers,mem_append,mem_cons,mem_append,mem_cons] at h
    rcases h with h | rfl | h | rfl | h
    · exact le_of_mem_quote h
    · decide
    · exact le_of_mem_print j h
    · decide
    · exact le_of_mem_printMembers (m::ms) h

end

theorem newline_notMem_print : '\n' ∉ print j :=
  fun h => absurd (le_of_mem_print j h) (by decide)

end Json
end OpsAgent.Lib
