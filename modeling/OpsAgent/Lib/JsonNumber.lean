import Mathlib.Tactic.Common

/-!
# Numbers in JSON texts

A number is kept as the literal that stands for it.
-/

namespace OpsAgent.Lib
open List Option Bool

namespace Json

def isDigit (c : Char) : Bool := '0' ≤ c&&c ≤ '9'
def takeDigits (s : List Char) : Option (List Char × List Char) :=
  if s.takeWhile isDigit=[] then none else some (s.takeWhile isDigit,s.dropWhile isDigit)
def takeMinus : List Char → List Char × List Char
  | [] => ([],[])
  | c::s => if c = '-' then ([c],s) else ([],c::s)
def takeInt : List Char → Option (List Char × List Char)
  | [] => none
  | c::s => if c = '0' then some ([c],s) else takeDigits (c::s)
def takeFrac : List Char → Option (List Char × List Char)
  | [] => some ([],[])
  | c::s =>
    if c = '.' then (takeDigits s).map fun d => (c::d.1,d.2) else some ([],c::s)
def takeSign : List Char → List Char × List Char
  | [] => ([],[])
  | c::s => if c = '+' ∨ c = '-' then ([c],s) else ([],c::s)

def takeExp : List Char → Option (List Char × List Char)
  | [] => some ([],[])
  | c::s =>
    if c = 'e' ∨ c = 'E' then
      (takeDigits (takeSign s).2).map fun d => (c::(takeSign s).1++d.1,d.2)
    else some ([],c::s)

def takeNumber (s : List Char) : Option (List Char × List Char) := do
  let (minus,s) := takeMinus s
  let (int,s) ← takeInt s
  let (frac,s) ← takeFrac s
  let (exp,s) ← takeExp s
  some (minus++int++frac++exp,s)

def Avoids (p : Char → Bool) (s : List Char) : Prop := ∀ c∈s.head?, p c=false
def continues (c : Char) : Bool := isDigit c||c == '.' || c == 'e' || c == 'E'

variable {d t r s i f e a : List Char} {p : Char → Bool}

theorem takeWhile_append_of_avoids (hd : ∀ c∈d, p c)
    (ht : Avoids p t) : (d++t).takeWhile p=d ∧ (d++t).dropWhile p=t := by
  induction d with
  | nil =>
    cases t with
    | nil => exact ⟨rfl,rfl⟩
    | cons c t => simp [ht c rfl]
  | cons c d ih =>
    have hc:=hd c mem_cons_self
    have hrest:=ih fun x hx => hd x (mem_cons_of_mem c hx)
    simp [hc,hrest]

theorem takeDigits_append (h : takeDigits s=some (d,r))
    (ht : Avoids isDigit t) : takeDigits (d++t)=some (d,t) := by
  rw [takeDigits] at h
  split at h
  next => cases h
  next hne =>
    cases h
    obtain ⟨htake,hdrop⟩ := takeWhile_append_of_avoids
      (fun c hc => (all_eq_true.mp (all_takeWhile (p := isDigit)) c hc)) ht
    rw [takeDigits,htake,hdrop,if_neg hne]

theorem takeDigits_self (hne : s≠[]) (hs : ∀ c∈s, isDigit c) : takeDigits s=some (s,[]) := by
  obtain ⟨htake,hdrop⟩ := takeWhile_append_of_avoids (t := []) hs fun c hc => by cases hc
  rw [append_nil] at htake hdrop
  rw [takeDigits,htake,hdrop,if_neg hne]

theorem takeDigits_digits (h : takeDigits s=some (d,r)) : ∀ c∈d, isDigit c := by
  rw [takeDigits] at h
  split at h
  next => cases h
  next =>
    cases h
    exact all_eq_true.mp all_takeWhile

theorem takeDigits_head (h : takeDigits s=some (d,r)) : ∃ c d', d=c::d' ∧ isDigit c := by
  rw [takeDigits] at h
  split at h
  next => cases h
  next hne =>
    cases h
    obtain ⟨c,d',hcons⟩ := exists_cons_of_ne_nil hne
    have hall : ∀ x∈s.takeWhile isDigit, isDigit x :=
      all_eq_true.mp all_takeWhile
    exact ⟨c,d',hcons,hall c (hcons ▸ mem_cons_self)⟩

theorem takeInt_head (h : takeInt s=some (i,r)) : ∃ c i', i=c::i' ∧ isDigit c := by
  cases s with
  | nil => cases h
  | cons c s =>
    rw [takeInt] at h
    split at h
    next hc =>
      cases h
      exact ⟨c,[],rfl,hc ▸ rfl⟩
    next => exact takeDigits_head h

theorem takeInt_append (h : takeInt s=some (i,r)) (ht : Avoids isDigit t) :
    takeInt (i++t)=some (i,t) := by
  cases s with
  | nil => cases h
  | cons c s =>
    rw [takeInt] at h
    split at h
    next hc =>
      cases h
      simp [takeInt,hc]
    next hc =>
      have hdigits:=takeDigits_append h ht
      obtain ⟨c',i',rfl,-⟩ := takeDigits_head h
      have hc' : c' ≠ '0' := by
        rw [takeDigits] at h
        split at h
        next => cases h
        next hne =>
          simp only [some.injEq,Prod.mk.injEq,takeWhile_cons] at h
          split at h
          next =>
            rw [← (cons.inj h.1).1]
            exact hc
          next => cases h.1
      rw [cons_append,takeInt,if_neg hc']
      exact hdigits

theorem takeFrac_cases (h : takeFrac s=some (f,r)) :
    f=[] ∧ r=s ∨ ∃ s' d, s = '.' :: s' ∧ takeDigits s' = some (d,r) ∧ f = '.' :: d := by
  cases s with
  | nil =>
    cases h
    exact .inl ⟨rfl,rfl⟩
  | cons c s =>
    rw [takeFrac] at h
    split at h
    next hc =>
      obtain ⟨⟨d,r'⟩,hd,heq⟩ := map_eq_some_iff.mp h
      cases heq
      exact .inr ⟨s,d,by rw [hc],hd,by rw [hc]⟩
    next =>
      cases h
      exact .inl ⟨rfl,rfl⟩

theorem takeExp_cases (h : takeExp s=some (e,r)) : e=[] ∧ r=s ∨ ∃ c s' d, (c = 'e' ∨ c = 'E') ∧ s=c::s' ∧
      takeDigits (takeSign s').2=some (d,r) ∧ e=c::((takeSign s').1++d) := by
  cases s with
  | nil =>
    cases h
    exact .inl ⟨rfl,rfl⟩
  | cons c s =>
    rw [takeExp] at h
    split at h
    next hc =>
      obtain ⟨⟨d,r'⟩,hd,heq⟩ := map_eq_some_iff.mp h
      cases heq
      exact .inr ⟨c,s,d,hc,rfl,hd,rfl⟩
    next =>
      cases h
      exact .inl ⟨rfl,rfl⟩

theorem takeFrac_append (h : takeFrac s=some (f,r))
    (ht : Avoids (fun c => isDigit c||c == '.') t) : takeFrac (f++t)=some (f,t) := by
  rcases takeFrac_cases h with ⟨rfl,-⟩ | ⟨s',d,-,hd,rfl⟩
  · cases t with
    | nil => rfl
    | cons c t =>
      have hc : c ≠ '.' := by
        rintro rfl
        exact absurd (ht '.' rfl) (by decide)
      rw [nil_append,takeFrac,if_neg hc]
  · have hdigits:=takeDigits_append hd
      (t := t) fun x hx => ((or_eq_false_iff.mp (ht x hx)).1)
    rw [cons_append,takeFrac,if_pos rfl,hdigits,map_some]

theorem takeSign_append {x : Char} (hx : isDigit x) :
    takeSign ((takeSign s).1++x::t)=((takeSign s).1,x::t) := by
  have hplain : ¬ (x = '+' ∨ x = '-') := by rintro (rfl | rfl) <;> exact absurd hx (by decide)
  cases s with
  | nil => simp [takeSign,hplain]
  | cons y s =>
    rw [takeSign]
    split
    next hy => simp [takeSign,hy]
    next => simp [takeSign,hplain]

theorem takeExp_append (h : takeExp s=some (e,r))
    (ht : Avoids continues t) : takeExp (e++t)=some (e,t) := by
  rcases takeExp_cases h with ⟨rfl,-⟩ | ⟨c,s',d,hc,-,hd,rfl⟩
  · cases t with
    | nil => rfl
    | cons c t =>
      have hc : ¬ (c = 'e' ∨ c = 'E') := by
        rintro (rfl | rfl)
        · exact absurd (ht 'e' rfl) (by decide)
        · exact absurd (ht 'E' rfl) (by decide)
      rw [nil_append,takeExp,if_neg hc]
  · have hdigits:=takeDigits_append hd (t := t) fun x hx => by
      have hx:=ht x hx
      simp only [continues,or_eq_false_iff] at hx
      exact hx.1.1.1
    obtain ⟨x,d',rfl,hx⟩ := takeDigits_head hd
    rw [cons_append,append_assoc,takeExp,if_pos hc,cons_append,
      takeSign_append hx,← cons_append,hdigits]
    rfl

theorem takeFrac_head (h : takeFrac s=some (f,r)) : ∀ c∈f.head?, c = '.' := by
  rcases takeFrac_cases h with ⟨rfl,-⟩ | ⟨s',d,-,-,rfl⟩
  · simp
  · simp
theorem takeExp_head (h : takeExp s=some (e,r)) : ∀ c∈e.head?, c = 'e' ∨ c = 'E' := by
  rcases takeExp_cases h with ⟨rfl,-⟩ | ⟨c,s',d,hc,-,-,rfl⟩
  · simp
  · simpa using hc
theorem avoids_append (hs : Avoids p s) (ht : Avoids p t) : Avoids p (s++t) := by
  cases s with
  | nil => exact ht
  | cons c s => exact hs

theorem takeMinus_text (s : List Char) : (takeMinus s).1++(takeMinus s).2=s := by
  cases s with
  | nil => rfl
  | cons c s =>
    rw [takeMinus]
    split <;> rfl

theorem takeMinus_append (hi : ∃ c i', i=c::i' ∧ isDigit c) :
    takeMinus ((takeMinus s).1++(i++t))=((takeMinus s).1,i++t) := by
  obtain ⟨x,i',rfl,hx⟩ := hi
  have hplain : x ≠ '-' := by
    rintro rfl
    exact absurd hx (by decide)
  cases s with
  | nil => simp [takeMinus,hplain]
  | cons c s =>
    rw [takeMinus]
    split
    next hc => simp [takeMinus,hc]
    next => simp [takeMinus,hplain]

theorem takeNumber_parts (s : List Char) {s₁ s₂ s₃ r₁ r₂ r₃ : List Char}
    (hi : takeInt s₁=some (i,r₁)) (hf : takeFrac s₂=some (f,r₂)) (he : takeExp s₃=some (e,r₃))
    (ht : Avoids continues t) :
    takeNumber ((takeMinus s).1++i++f++e++t)=some ((takeMinus s).1++i++f++e,t) := by
  have hexp : Avoids (fun c => isDigit c||c == '.') (e++t) := by
    refine avoids_append ?_ ?_
    · intro c hc
      rcases takeExp_head he c hc with rfl | rfl <;> decide
    · intro c hc
      have hstop:=ht c hc
      simp only [continues,or_eq_false_iff] at hstop
      simp [hstop.1.1.1,hstop.1.1.2]
  have hfrac : Avoids isDigit (f++(e++t)) := by
    refine avoids_append ?_ fun c hc => (or_eq_false_iff.mp (hexp c hc)).1
    intro c hc
    rw [takeFrac_head hf c hc]
    decide
  have htext : (takeMinus s).1++i++f++e++t=(takeMinus s).1++(i++(f++(e++t))) := by simp
  rw [htext]
  simp [takeNumber,takeMinus_append (takeInt_head hi),takeInt_append hi hfrac,takeFrac_append hf hexp,takeExp_append he ht]

theorem takeNumber_cases (h : takeNumber s=some (a,r)) :
    ∃ i f e s₁ s₂, a=(takeMinus s).1++i++f++e ∧ takeInt (takeMinus s).2=some (i,s₁) ∧
      takeFrac s₁=some (f,s₂) ∧ takeExp s₂=some (e,r) := by
  simp only [takeNumber,bind_eq_bind,bind_eq_some_iff,some.injEq,Prod.mk.injEq] at h
  obtain ⟨⟨i,s₁⟩,hi,⟨f,s₂⟩,hf,⟨e,s₃⟩,he,rfl,rfl⟩ := h
  exact ⟨i,f,e,s₁,s₂,rfl,hi,hf,he⟩

theorem takeNumber_append (h : takeNumber s=some (a,r))
    (ht : Avoids continues t) : takeNumber (a++t)=some (a,t) := by
  obtain ⟨i,f,e,s₁,s₂,rfl,hi,hf,he⟩ := takeNumber_cases h
  exact takeNumber_parts s hi hf he ht
theorem takeNumber_self (h : takeNumber s=some (a,r)) : takeNumber a=some (a,[]) := by
  have hself:=takeNumber_append h (t := []) fun c hc => by cases hc
  rwa [append_nil] at hself

def literalChar (c : Char) : Bool := isDigit c||['-', '+', '.', 'e', 'E'].contains c

theorem literalChar_of_isDigit {c : Char} (h : isDigit c) : literalChar c := by
  rw [literalChar,h,Bool.true_or]

theorem takeInt_chars (h : takeInt s=some (i,r)) : ∀ c∈i, literalChar c := by
  intro c hc
  cases s with
  | nil => cases h
  | cons d s =>
    rw [takeInt] at h
    split at h
    next hd =>
      cases h
      rw [mem_singleton.mp hc,hd]
      decide
    next => exact literalChar_of_isDigit (takeDigits_digits h c hc)

theorem takeFrac_chars (h : takeFrac s=some (f,r)) : ∀ c∈f, literalChar c := by
  rcases takeFrac_cases h with ⟨rfl,-⟩ | ⟨s',d,-,hd,rfl⟩
  · exact fun c hc => absurd hc not_mem_nil
  · intro c hc
    rcases mem_cons.mp hc with rfl | hc
    · decide
    · exact literalChar_of_isDigit (takeDigits_digits hd c hc)

theorem takeSign_chars : ∀ c∈(takeSign s).1, literalChar c := by
  intro c hc
  cases s with
  | nil => cases hc
  | cons d s =>
    rw [takeSign] at hc
    split at hc
    next hd =>
      rw [mem_singleton.mp hc]
      rcases hd with rfl | rfl <;> decide
    next => cases hc

theorem takeExp_chars (h : takeExp s=some (e,r)) : ∀ c∈e, literalChar c := by
  rcases takeExp_cases h with ⟨rfl,-⟩ | ⟨x,s',d,hx,-,hd,rfl⟩
  · exact fun c hc => absurd hc not_mem_nil
  · intro c hc
    rw [mem_cons,mem_append] at hc
    rcases hc with rfl | hc | hc
    · rcases hx with rfl | rfl <;> decide
    · exact takeSign_chars c hc
    · exact literalChar_of_isDigit (takeDigits_digits hd c hc)

theorem takeMinus_chars : ∀ c∈(takeMinus s).1, literalChar c := by
  intro c hc
  cases s with
  | nil => cases hc
  | cons d s =>
    rw [takeMinus] at hc
    split at hc
    next hd =>
      rw [mem_singleton.mp hc,hd]
      decide
    next => cases hc

theorem takeNumber_chars (h : takeNumber s=some (a,r)) : ∀ c∈a, literalChar c := by
  obtain ⟨i,f,e,s₁,s₂,rfl,hi,hf,he⟩ := takeNumber_cases h
  intro c hc
  simp only [mem_append] at hc
  rcases hc with ((hc | hc) | hc) | hc
  · exact takeMinus_chars c hc
  · exact takeInt_chars hi c hc
  · exact takeFrac_chars hf c hc
  · exact takeExp_chars he c hc

end Json

structure JsonNumber where
  text : List Char
  valid : Json.takeNumber text=some (text,[])

namespace Json

theorem isDigit_eq (c : Char) : isDigit c=c.isDigit := by
  simp only [isDigit,Char.isDigit,Char.le_def]

theorem toDigits_head {n : Nat} (h : n≠0) : ∀ c∈(Nat.toDigits 10 n).head?, c ≠ '0' := by
  induction n using Nat.strongRecOn with
  | _ n ih =>
    rw [Nat.toDigits_eq_if (by decide)]
    split
    next hlt =>
      have hall : ∀ m<10, m≠0 → Nat.digitChar m ≠ '0' := by decide
      simpa using hall n hlt h
    next hge =>
      have hne : Nat.toDigits 10 (n / 10)≠[] := Nat.toDigits_ne_nil
      have hhead:=ih (n / 10) (by omega) (by omega)
      obtain ⟨d,ds,hd⟩ := exists_cons_of_ne_nil hne
      rw [hd] at hhead ⊢
      exact hhead

def intText (n : Int) : List Char := (if n<0 then ['-'] else [])++Nat.toDigits 10 n.natAbs

theorem takeInt_toDigits (n : Nat) : takeInt (Nat.toDigits 10 n)=some (Nat.toDigits 10 n,[]) := by
  by_cases hn : n=0
  · rw [hn]
    rfl
  · have hhead:=toDigits_head hn
    have hne : Nat.toDigits 10 n≠[] := Nat.toDigits_ne_nil
    have hall : ∀ c∈Nat.toDigits 10 n, isDigit c := by
      intro c hc
      rw [isDigit_eq]
      exact Nat.isDigit_of_mem_toDigits (by decide) (by decide) hc
    have hdigits:=takeDigits_self hne hall
    cases hd : Nat.toDigits 10 n with
    | nil => exact absurd hd hne
    | cons c s =>
      rw [hd] at hhead hdigits
      rw [takeInt,if_neg (hhead c rfl),hdigits]

theorem takeMinus_intText (n : Int) :
    takeMinus (intText n)=(if n<0 then ['-'] else [],Nat.toDigits 10 n.natAbs) := by
  have hne : Nat.toDigits 10 n.natAbs≠[] := Nat.toDigits_ne_nil
  rw [intText]
  split
  next => rfl
  next =>
    obtain ⟨c,s,hd⟩ := exists_cons_of_ne_nil hne
    have hc : c ≠ '-' := by
      rintro rfl
      have hdigit:=Nat.isDigit_of_mem_toDigits (c := '-') (b := 10) (n := n.natAbs) (by decide)
        (by decide) (hd ▸ mem_cons_self)
      exact absurd hdigit (by decide)
    rw [hd,nil_append,takeMinus,if_neg hc]

theorem takeNumber_intText (n : Int) : takeNumber (intText n)=some (intText n,[]) := by
  simp only [takeNumber,takeMinus_intText,takeInt_toDigits,bind_eq_bind,bind_some,
    takeFrac,takeExp,append_nil]
  rw [intText]

end Json

def JsonNumber.ofInt (n : Int) : JsonNumber := ⟨Json.intText n,Json.takeNumber_intText n⟩

/-- The integer that a literal without a fraction and an exponent stands for. -/
def JsonNumber.toInt? (n : JsonNumber) : Option Int :=
  let (minus,digits) := Json.takeMinus n.text
  if digits.all Char.isDigit then
    let value:=Nat.ofDigitChars 10 digits 0
    some (if minus=[] then value else -value)
  else none

theorem JsonNumber.toInt?_ofInt (n : Int) : (JsonNumber.ofInt n).toInt?=some n := by
  have hall : (Nat.toDigits 10 n.natAbs).all Char.isDigit :=
    all_eq_true.mpr fun c hc => Nat.isDigit_of_mem_toDigits (by decide) (by decide) hc
  simp only [JsonNumber.toInt?,JsonNumber.ofInt,Json.takeMinus_intText,hall,if_true,
    Nat.ofDigitChars_ten_toDigits]
  congr 1
  by_cases hn : n<0
  · rw [if_pos hn,if_neg (cons_ne_nil _ _)]
    omega
  · rw [if_neg hn,if_pos rfl]
    omega

end OpsAgent.Lib
