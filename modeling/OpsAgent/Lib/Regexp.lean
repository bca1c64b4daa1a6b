import Mathlib.Tactic.Common

/-!
# Regular expressions with leftmost-first matching

The match of Go's package `regexp`: the leftmost one, and of these the one that a backtracking
search would find first.
-/

namespace OpsAgent.Lib.Regexp
open List Option

inductive Re where
  | char (p : Char → Bool)
  | empty
  | seq (r s : Re)
  | alt (r s : Re)
  | star (r : Re)
  | group (i : Nat) (r : Re)
  | bol | eol

namespace Re

def plus (r : Re) : Re := .seq r (.star r)
def lit (s : List Char) : Re := s.foldr (fun c r => .seq (.char (· == c)) r) .empty
def seqs (rs : List Re) : Re := rs.foldr .seq .empty

end Re

/-- The classes `\s` and `\S`, and the dot. -/
def whitespace (c : Char) : Bool := ['\t', '\n', '\x0c', '\r', ' '].contains c
def nonWhitespace (c : Char) : Bool := !whitespace c
def notNewline (c : Char) : Bool := c != '\n'

structure Cursor where
  atStart : Bool
  rest : List Char
  groups : List (Nat × List Char)

def rounds (step : Cursor → List Cursor) : Nat → Cursor → List Cursor
  | 0, c => [c]
  | n+1, c =>
    ((step c).filter fun d => d.rest.length<c.rest.length).flatMap (rounds step n)++[c]

def paths : Re → Cursor → List Cursor
  | .char p, c => match c.rest with
    | x::rest => if p x then [{c with atStart := false, rest := rest}] else []
    | [] => []
  | .empty, c => [c]
  | .seq r s, c => (paths r c).flatMap (paths s)
  | .alt r s, c => paths r c++paths s c
  | .star r, c => rounds (paths r) c.rest.length c
  | .group i r, c => (paths r c).map fun d =>
      {d with groups := (i,c.rest.take (c.rest.length-d.rest.length))::d.groups}
  | .bol, c => if c.atStart then [c] else []
  | .eol, c => if c.rest.isEmpty then [c] else []

def first (r : Re) (c : Cursor) : Option Cursor := (paths r c).head?

/-- `FindStringSubmatch`: the groups of the match. -/
def findSubmatch (r : Re) (s : List Char) : Option (List (Nat × List Char)) :=
  ((range (s.length+1)).findSome? fun i => first r ⟨i == 0,s.drop i,[]⟩).map Cursor.groups

variable {g : List (Nat × List Char)} {p : Char → Bool} {rest w : List Char}
  {b : Bool} {r : Re} {d : Cursor} {i : Nat}

theorem first_char {x : Char} (h : p x) :
    first (.char p) ⟨b,x::rest,g⟩=some ⟨false,rest,g⟩ := by simp [first,paths,h]
theorem paths_char_eq_nil (h : ∀ x∈rest.head?, p x=false) : paths (.char p) ⟨b,rest,g⟩=[] := by
  cases rest with
  | nil => rfl
  | cons x rest => simp [paths,h x rfl]
theorem first_empty (c : Cursor) : first .empty c=some c := rfl

theorem head?_flatMap {α β : Type} {l : List α} {f : α → List β} {a : α} {b : β}
    (ha : l.head?=some a) (hb : (f a).head?=some b) : (l.flatMap f).head?=some b := by
  obtain ⟨l,rfl⟩ := head?_eq_some_iff.mp ha
  obtain ⟨t,ht⟩ := head?_eq_some_iff.mp hb
  rw [flatMap_cons,ht,cons_append,head?_cons]

theorem first_seq {s : Re} {c e : Cursor} (hr : first r c=some d) (hs : first s d=some e) :
    first (.seq r s) c=some e :=
  head?_flatMap hr hs

theorem first_group {c : Cursor} (h : first r c=some d) : first (.group i r) c=some
      {d with groups := (i,c.rest.take (c.rest.length-d.rest.length))::d.groups} := by
  rw [first,paths,head?_map]
  rw [first] at h
  rw [h,map_some]

theorem first_group_append {b' : Bool}
    {g' : List (Nat × List Char)} (h : first r ⟨b,w++rest,g⟩=some ⟨b',rest,g'⟩) :
    first (.group i r) ⟨b,w++rest,g⟩=some ⟨b',rest,(i,w)::g'⟩ := by
  rw [first_group h]
  simp

theorem first_bol (rest : List Char) (g : List (Nat × List Char)) :
    first .bol ⟨true,rest,g⟩=some ⟨true,rest,g⟩ := rfl
theorem first_eol (b : Bool) (g : List (Nat × List Char)) : first .eol ⟨b,[],g⟩=some ⟨b,[],g⟩ := rfl

theorem rounds_char {n : Nat} (hw : ∀ x∈w, p x) (hrest : ∀ x∈rest.head?, p x=false) (hn : w.length≤n) :
    (rounds (paths (.char p)) n ⟨b,w++rest,g⟩).head?=some ⟨b&&w.isEmpty,rest,g⟩ := by
  induction w generalizing n b with
  | nil =>
    cases n with
    | zero => simp [rounds]
    | succ n => simp [rounds,paths_char_eq_nil hrest]
  | cons x w ih =>
    have hx:=hw x mem_cons_self
    have hw' : ∀ y∈w, p y := fun y hy => hw y (mem_cons_of_mem _ hy)
    cases n with
    | zero => simp at hn
    | succ n =>
      have hstep : paths (.char p) ⟨b,x::w++rest,g⟩=[⟨false,w++rest,g⟩] := by simp [paths,hx]
      have hih:=ih hw' (Nat.le_of_succ_le_succ hn) (b := false)
      obtain ⟨t,ht⟩ := head?_eq_some_iff.mp hih
      rw [rounds,hstep]
      simp [ht]

theorem first_star_char (hw : ∀ x∈w, p x) (hrest : ∀ x∈rest.head?, p x=false) :
    first (.star (.char p)) ⟨b,w++rest,g⟩=some ⟨b&&w.isEmpty,rest,g⟩ := by
  rw [first,paths]
  refine rounds_char hw hrest ?_
  simp

theorem first_plus_char (hne : w≠[]) (hw : ∀ x∈w, p x)
    (hrest : ∀ x∈rest.head?, p x=false) : first (.plus (.char p)) ⟨b,w++rest,g⟩=some ⟨false,rest,g⟩ := by
  obtain ⟨x,w,rfl⟩ := exists_cons_of_ne_nil hne
  have hx:=hw x mem_cons_self
  have hw' : ∀ y∈w, p y := fun y hy => hw y (mem_cons_of_mem _ hy)
  exact first_seq (first_char hx) (first_star_char hw' hrest)

theorem findSubmatch_of_first {s : List Char}
    (h : first r ⟨true,s,[]⟩=some d) : findSubmatch r s=some d.groups := by
  have hrange : range (s.length+1)=0::(range s.length).map Nat.succ :=
    range_succ_eq_map
  have h0 : first r ⟨(0 == 0),s.drop 0,[]⟩=some d := h
  rw [findSubmatch,hrange,findSome?_cons,h0]
  rfl

end OpsAgent.Lib.Regexp
