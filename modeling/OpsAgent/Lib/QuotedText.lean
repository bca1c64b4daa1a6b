import Mathlib.Data.List.Basic

/-!
# Quoted text

A text between quotes in which the quote, the line feed and the escape character itself are written
with the escape character in front, the line feed as a letter.
-/

namespace OpsAgent.Lib.QuotedText
open List

structure Alphabet (α : Type*) where
  (esc quote newline letter : α)
  nodup : [esc,quote,newline,letter].Nodup

variable {α : Type*}

theorem Alphabet.ne (A : Alphabet α) : A.esc≠A.quote ∧ A.esc≠A.newline ∧ A.esc≠A.letter ∧
    A.quote≠A.newline ∧ A.quote≠A.letter ∧ A.newline≠A.letter := by
  have h:=A.nodup
  simp only [nodup_cons,mem_cons,not_mem_nil,or_false,not_or,nodup_nil,
    not_false_eq_true,and_true] at h
  obtain ⟨⟨h1,h2,h3⟩,⟨h4,h5⟩,h6⟩ := h
  exact ⟨h1,h2,h3,h4,h5,h6⟩

variable [DecidableEq α]

def replaceAll (old : α) (new s : List α) : List α := s.flatMap fun a => if a=old then new else [a]

namespace Alphabet
variable (A : Alphabet α)

/-- The escape character is replaced first. -/
def escape (s : List α) : List α :=
  replaceAll A.newline [A.esc,A.letter]
    (replaceAll A.quote [A.esc,A.quote] (replaceAll A.esc [A.esc,A.esc] s))

def meaning (a : α) : Option α :=
  if a=A.esc then some A.esc
  else if a=A.quote then some A.quote
  else if a=A.letter then some A.newline
  else none

def unescape : List α → Option (List α)
  | [] => some []
  | [a] => if a=A.esc ∨ a=A.quote ∨ a=A.newline then none else some [a]
  | a::b::s =>
    if a=A.esc then (A.meaning b).bind fun c => (unescape s).map (c :: ·)
    else if a=A.quote ∨ a=A.newline then none
    else (unescape (b::s)).map (a :: ·)

def read : List α → Option (List α × List α)
  | [] => none
  | [a] => if a=A.quote then some ([],[]) else none
  | a::b::s =>
    if a=A.quote then some ([],b::s)
    else if a=A.esc then (A.meaning b).bind fun c => (read s).map fun r => (c::r.1,r.2)
    else if a=A.newline then none
    else (read (b::s)).map fun r => (a::r.1,r.2)

def hasBareQuote : List α → Bool
  | [] => false
  | [a] => a=A.quote
  | a::b::s => if a=A.esc then hasBareQuote s else a=A.quote||hasBareQuote (b::s)

def code (a : α) : List α :=
  if a=A.esc then [A.esc,A.esc]
  else if a=A.quote then [A.esc,A.quote]
  else if a=A.newline then [A.esc,A.letter]
  else [a]

theorem replaceAll_append (old : α) (new s t : List α) :
    replaceAll old new (s++t)=replaceAll old new s++replaceAll old new t := flatMap_append

theorem escape_cons (a : α) (s : List α) : A.escape (a::s)=A.code a++A.escape s := by
  obtain ⟨hq,hn,hl,hqn,hql,hnl⟩ := A.ne
  have hsplit : A.escape (a::s)=A.escape [a]++A.escape s := by
    show A.escape ([a]++s)=_
    unfold escape
    rw [replaceAll_append,replaceAll_append,replaceAll_append]
  have hone : A.escape [a]=A.code a := by
    unfold escape code
    by_cases h1 : a=A.esc
    · simp [replaceAll,h1,hq,hn]
    · by_cases h2 : a=A.quote
      · simp [replaceAll,h2,hq.symm,hn,hqn]
      · by_cases h3 : a=A.newline
        · simp [replaceAll,h3,hn.symm,hqn.symm]
        · simp [replaceAll,h1,h2,h3]
  rw [hsplit,hone]

theorem code_cases (a : α) : A.code a=[a] ∧ a≠A.esc ∧ a≠A.quote ∧ a≠A.newline ∨
      ∃ b, A.code a=[A.esc,b] ∧ A.meaning b=some a := by
  obtain ⟨hq,-,hl,-,hql,-⟩ := A.ne
  unfold code
  by_cases h1 : a=A.esc
  · exact .inr ⟨A.esc,by simp [h1],by simp [meaning,h1]⟩
  · by_cases h2 : a=A.quote
    · exact .inr ⟨A.quote,by simp [h2,hq.symm],by simp [meaning,h2,hq.symm]⟩
    · by_cases h3 : a=A.newline
      · refine .inr ⟨A.letter,by rw [if_neg h1,if_neg h2,if_pos h3],?_⟩
        simp [meaning,h3,hl.symm,hql.symm]
      · exact .inl ⟨by simp [h1,h2,h3],h1,h2,h3⟩

section
variable {A} {a b c : α}

theorem unescape_plain (he : a≠A.esc) (hq : a≠A.quote) (hn : a≠A.newline) (s : List α) :
    A.unescape (a::s)=(A.unescape s).map (a :: ·) := by
  cases s with
  | nil | cons b s => simp [unescape,he,hq,hn]
theorem unescape_escaped (h : A.meaning b=some c) (s : List α) :
    A.unescape (A.esc::b::s)=(A.unescape s).map (c :: ·) := by simp [unescape,h]

theorem read_plain (he : a≠A.esc) (hq : a≠A.quote) (hn : a≠A.newline) (s : List α) :
    A.read (a::s)=(A.read s).map fun r => (a::r.1,r.2) := by
  cases s with
  | nil => simp [read,hq]
  | cons b s => simp [read,he,hq,hn]

theorem read_escaped (h : A.meaning b=some c) (s : List α) :
    A.read (A.esc::b::s)=(A.read s).map fun r => (c::r.1,r.2) := by simp [read,A.ne.1,h]

theorem hasBareQuote_plain (he : a≠A.esc) (hq : a≠A.quote) (s : List α) :
    A.hasBareQuote (a::s)=A.hasBareQuote s := by
  cases s with
  | nil => simp [hasBareQuote,hq]
  | cons b s => simp [hasBareQuote,he,hq]

theorem hasBareQuote_escaped (b : α) (s : List α) :
    A.hasBareQuote (A.esc::b::s)=A.hasBareQuote s := by simp [hasBareQuote]

end

theorem read_escape (s rest : List α) : A.read (A.escape s++A.quote::rest)=some (s,rest) := by
  induction s with
  | nil =>
    show A.read (A.quote::rest)=some ([],rest)
    cases rest <;> simp [read]
  | cons a s ih =>
    rw [escape_cons,append_assoc]
    rcases A.code_cases a with ⟨hcode,he,hq,hn⟩ | ⟨b,hcode,hmeans⟩
    · rw [hcode,singleton_append,read_plain he hq hn,ih]
      rfl
    · rw [hcode,cons_append,singleton_append,read_escaped hmeans,ih]
      rfl

variable (s : List α)

theorem unescape_escape : A.unescape (A.escape s)=some s := by
  induction s with
  | nil => rfl
  | cons a s ih =>
    rw [escape_cons]
    rcases A.code_cases a with ⟨hcode,he,hq,hn⟩ | ⟨b,hcode,hmeans⟩
    · rw [hcode,singleton_append,unescape_plain he hq hn,ih]
      rfl
    · rw [hcode,cons_append,singleton_append,unescape_escaped hmeans,ih]
      rfl

theorem hasBareQuote_escape : A.hasBareQuote (A.escape s)=false := by
  induction s with
  | nil => rfl
  | cons a s ih =>
    rw [escape_cons]
    rcases A.code_cases a with ⟨hcode,he,hq,-⟩ | ⟨b,hcode,-⟩
    · rw [hcode,singleton_append,hasBareQuote_plain he hq,ih]
    · rw [hcode,cons_append,singleton_append,hasBareQuote_escaped,ih]

theorem newline_notMem_escape : A.newline∉A.escape s := by
  obtain ⟨-,hn,-,hqn,-,hnl⟩ := A.ne
  induction s with
  | nil => exact not_mem_nil
  | cons a s ih =>
    rw [escape_cons,mem_append,not_or]
    refine ⟨?_,ih⟩
    unfold code
    split
    · simp [hn.symm]
    split
    · simp [hn.symm,hqn.symm]
    split
    · simp [hn.symm,hnl]
    next hne => simpa using Ne.symm hne

theorem escape_injective {s t : List α} (h : A.escape s=A.escape t) : s=t :=
  Option.some.inj ((A.unescape_escape s).symm.trans (h ▸ A.unescape_escape t))

end Alphabet

end OpsAgent.Lib.QuotedText
