import Mathlib.Data.List.Infix

/-!
# Go strings

A Go string is a list of bytes that need not be UTF-8. The functions are those of package `strings`;
white space is what `unicode.IsSpace` accepts, and its characters are found by their encodings,
which are only matched whole.
-/

namespace OpsAgent.Lib.GoStrings
open List

abbrev GoString := List UInt8

instance : LawfulBEq GoString := inferInstanceAs (LawfulBEq (List UInt8))

def utf8 (s : String) : GoString := s.toByteArray.data.toList

/-- The verb `%d` of `fmt`. -/
def decimal (n : Int) : GoString := utf8 (toString n)
def hexDigit (n : UInt8) : Char := "0123456789abcdef".toList.getD n.toNat '0'

/-- `hex.EncodeToString`, and the verb `%x` of `fmt`. -/
def hex (bs : GoString) : String :=
  String.ofList (bs.flatMap fun b => [hexDigit (b / 16),hexDigit (b % 16)])

/-- `strings.Contains` -/
def contains (s sub : GoString) : Bool := s.tails.any fun t => sub.isPrefixOf t

/-- `strings.ContainsAny` for a set of bytes below 128. -/
def containsAny (s chars : GoString) : Bool := s.any fun c => chars.contains c

/-- `strings.HasPrefix` -/
def hasPrefix (s start : GoString) : Bool := start.isPrefixOf s

section Strip

variable {α : Type*} {pats : List (List α)}

def Stripped (pats : List (List α)) (s : List α) : Prop := ∀ p∈pats, ¬ p <+: s

theorem Stripped.of_initial {s t : List α} (h : Stripped pats t) (hp : s <+: t) : Stripped pats s :=
  fun p hmem hpre => h p hmem (hpre.trans hp)

variable [BEq α]

def strip (pats : List (List α)) : Nat → List α → List α
  | 0, s => s
  | n+1, s => match pats.find? fun p => p.isPrefixOf s with
    | none => s
    | some p => strip pats n (s.drop p.length)

theorem strip_suffix (pats : List (List α)) (n : Nat) (s : List α) : strip pats n s <:+ s := by
  induction n generalizing s with
  | zero => exact suffix_refl s
  | succ n ih =>
    rw [strip]
    cases pats.find? fun p => p.isPrefixOf s with
    | none => exact suffix_refl s
    | some p => exact (ih _).trans (drop_suffix p.length s)

variable [LawfulBEq α]

theorem find_eq_none_iff (s : List α) : (pats.find? fun p => p.isPrefixOf s)=none ↔ Stripped pats s := by
  simp [Stripped]

theorem strip_of_stripped {s : List α} (h : Stripped pats s) (n : Nat) : strip pats n s=s := by
  cases n with
  | zero => rfl
  | succ n =>
    rw [strip,(find_eq_none_iff s).mpr h]

theorem strip_stripped (hne : ∀ p∈pats, p≠[]) (n : Nat) (s : List α) (hn : s.length≤n) :
    Stripped pats (strip pats n s) := by
  induction n generalizing s with
  | zero =>
    have hs : s=[] := length_eq_zero_iff.mp (Nat.le_zero.mp hn)
    intro p hp hpre
    rw [hs,strip] at hpre
    exact hne p hp (prefix_nil.mp hpre)
  | succ n ih =>
    rw [strip]
    cases hf : pats.find? fun p => p.isPrefixOf s with
    | none => exact (find_eq_none_iff s).mp hf
    | some p =>
      refine ih _ ?_
      have hp : 0<p.length := length_pos_of_ne_nil (hne p (mem_of_find?_eq_some hf))
      have hd : (s.drop p.length).length=s.length-p.length := length_drop
      omega

end Strip

/-- The characters that `unicode.IsSpace` accepts. -/
def whiteSpace : List Char :=
  [0x09,0x0a,0x0b,0x0c,0x0d,0x20,0x85,0xa0,0x1680,0x2000,0x2001,0x2002,0x2003,0x2004,
    0x2005,0x2006,0x2007,0x2008,0x2009,0x200a,0x2028,0x2029,0x202f,0x205f,0x3000].map
    Char.ofNat
def spaces : List GoString := whiteSpace.map String.utf8EncodeChar
def trimLeft (s : GoString) : GoString := strip spaces s.length s
def trimRight (s : GoString) : GoString :=
  (strip (spaces.map reverse) s.length s.reverse).reverse

/-- `strings.TrimSpace` -/
def trimSpaces (s : GoString) : GoString := trimRight (trimLeft s)

variable (s : GoString) {w : GoString}

theorem spaces_ne_nil : ∀ p∈spaces, p≠[] := by decide
theorem reversed_spaces_ne_nil : ∀ p∈spaces.map reverse, p≠[] := by decide
theorem trimRight_initial : trimRight s <+: s := by
  have h:=strip_suffix (spaces.map reverse) s.length s.reverse
  rw [← reverse_prefix,reverse_reverse] at h
  exact h

theorem trimRight_trimRight : trimRight (trimRight s)=trimRight s := by
  have hs : Stripped (spaces.map reverse) (trimRight s).reverse := by
    rw [trimRight,reverse_reverse]
    exact strip_stripped reversed_spaces_ne_nil _ _ (by rw [length_reverse])
  rw [trimRight,strip_of_stripped hs,reverse_reverse]

theorem trimSpaces_trimSpaces : trimSpaces (trimSpaces s)=trimSpaces s := by
  have hleft : Stripped spaces (trimLeft s) := strip_stripped spaces_ne_nil _ _ (Nat.le_refl _)
  have hboth : Stripped spaces (trimSpaces s) := hleft.of_initial (trimRight_initial _)
  have hfix : trimLeft (trimSpaces s)=trimSpaces s := strip_of_stripped hboth _
  rw [trimSpaces,hfix]
  exact trimRight_trimRight _

/-- The loop of `strings.Fields`: bytes of a space that are left, the word so far, and the rest. -/
def fieldsFrom : Nat → GoString → GoString → List GoString
  | _, word, [] => if word=[] then [] else [word]
  | skip+1, word, _::s => fieldsFrom skip word s
  | 0, word, b::s =>
    match spaces.find? (·.isPrefixOf (b::s)) with
    | some p => (if word=[] then [] else [word])++fieldsFrom (p.length-1) [] s
    | none => fieldsFrom 0 (word++[b]) s

def fields (s : GoString) : List GoString := fieldsFrom 0 [] s

/-- The first bytes of spaces. -/
def spaceBytes : List UInt8 := [9,10,11,12,13,32,0xc2,0xe1,0xe2,0xe3]

theorem fieldsFrom_word (h : ∀ b∈w, b∉spaceBytes) (word s : GoString) :
    fieldsFrom 0 word (w++s)=fieldsFrom 0 (word++w) s := by
  induction w generalizing word with
  | nil => rw [nil_append,append_nil]
  | cons b w ih =>
    have hstart : ∀ p∈spaces, ∃ c t, p=c::t ∧ c∈spaceBytes := by
      have hall : (spaces.all fun p => p.head?.any spaceBytes.contains) := by decide
      intro p hp
      have hhead:=all_eq_true.mp hall p hp
      cases p with
      | nil => cases hhead
      | cons c t => exact ⟨c,t,rfl,by simpa using hhead⟩
    have hnone : spaces.find? (·.isPrefixOf (b::(w++s)))=none := by
      rw [find?_eq_none]
      intro p hp hhead
      obtain ⟨c,t,rfl,hc⟩ := hstart p hp
      rw [isPrefixOf_cons_cons,Bool.and_eq_true,beq_iff_eq] at hhead
      exact h b mem_cons_self (hhead.1 ▸ hc)
    rw [cons_append,fieldsFrom,hnone]
    dsimp only
    rw [ih fun c hc => h c (mem_cons_of_mem b hc),append_assoc,singleton_append]

theorem fields_words {ws : List GoString} (h : ∀ v∈w::ws, v≠[] ∧ ∀ b∈v, b∉spaceBytes) :
    fields (w++ws.flatMap (32 :: ·))=w::ws := by
  induction ws generalizing w with
  | nil =>
    obtain ⟨hne,hplain⟩ := h w mem_cons_self
    rw [flatMap_nil,fields,fieldsFrom_word hplain,nil_append,fieldsFrom,if_neg hne]
  | cons v ws ih =>
    obtain ⟨hne,hplain⟩ := h w mem_cons_self
    have hblank (s : GoString) : fieldsFrom 0 w (32::s)=w::fieldsFrom 0 [] s := by
      have hfind : spaces.find? (·.isPrefixOf (32::s))=some [32] := rfl
      rw [fieldsFrom,hfind]
      simp [hne]
    rw [flatMap_cons,cons_append,fields,fieldsFrom_word hplain,nil_append,hblank,← fields,
      ih fun x hx => h x (mem_cons_of_mem w hx)]

end OpsAgent.Lib.GoStrings
