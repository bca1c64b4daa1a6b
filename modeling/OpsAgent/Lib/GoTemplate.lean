import Mathlib.Data.List.Infix
import Mathlib.Data.List.TakeWhile

/-!
# Templates with plain fields (`text/template`)

An action is one field of the data: spaces, a dot, a name, spaces; `parse` finds nothing for a
template with any other action.
-/

namespace OpsAgent.Lib.GoTemplate
open List

/-- The functions of `unicode` that tell what a name is; on ASCII they are known. -/
structure Tables where
  (letter digit : Char → Bool)
  letter_ascii : ∀ c : Char, c.toNat<128 → letter c=c.isAlpha
  digit_ascii : ∀ c : Char, c.toNat<128 → digit c=c.isDigit

def isSpace (c : Char) : Bool := c == ' ' || c == '\t' || c == '\r' || c == '\n'
def Tables.alphaNumeric (u : Tables) (c : Char) : Bool := c == '_' || u.letter c||u.digit c
def leftDelim : List Char := ['\x7b', '\x7b']
def rightDelim : List Char := ['\x7d', '\x7d']

inductive Node where
  | text (s : List Char)
  | field (name : List Char)

def splitDelim : List Char → List Char × Option (List Char)
  | [] => ([],none)
  | c::s =>
    if leftDelim.isPrefixOf (c::s) then ([],some ((c::s).drop 2))
    else (c::(splitDelim s).1,(splitDelim s).2)

def readAction (u : Tables) (s : List Char) : Option (List Char × List Char) :=
  match s.dropWhile isSpace with
  | '.' :: rest =>
    let name:=rest.takeWhile u.alphaNumeric
    let after:=(rest.dropWhile u.alphaNumeric).dropWhile isSpace
    if name=[] ∨ name.head?.any Char.isDigit=true then none
    else if rightDelim.isPrefixOf after then some (name,after.drop 2)
    else none
  | _ => none

def parseFrom (u : Tables) : Nat → List Char → Option (List Node)
  | 0, _ => none
  | n+1, s =>
    match (splitDelim s).2 with
    | none => some [.text (splitDelim s).1]
    | some rest =>
      match readAction u rest with
      | none => none
      | some r => (parseFrom u n r.2).map fun nodes => .text (splitDelim s).1 :: .field r.1::nodes

def parse (u : Tables) (s : List Char) : Option (List Node) := parseFrom u (s.length+1) s
def noValue : List Char := "<no value>".toList
def Node.print (data : List Char → Option (List Char)) : Node → List Char
  | .text s => s
  | .field name => (data name).getD noValue
def execute (data : List Char → Option (List Char)) (nodes : List Node) : List Char :=
  nodes.flatMap (Node.print data)

structure Placeholder (u : Tables) where
  (before name after : List Char)
  before_spaces : ∀ c∈before, isSpace c
  after_spaces : ∀ c∈after, isSpace c
  name_chars : ∀ c∈name, u.alphaNumeric c
  name_start : ∃ c rest, name=c::rest ∧ c.isDigit=false

def Placeholder.source {u : Tables} (p : Placeholder u) : List Char :=
  leftDelim++(p.before ++ '.' :: (p.name++(p.after++rightDelim)))

/-- A string in which every left delimiter starts a placeholder. -/
inductive PlainString (u : Tables) where
  | text (s : List Char) (h : ¬ leftDelim <:+: s)
  | field (s : List Char) (h : ¬ leftDelim <:+: s++['\x7b']) (p : Placeholder u)
      (rest : PlainString u)

namespace PlainString
variable {u : Tables}

def source : PlainString u → List Char
  | .text s _ => s
  | .field s _ p rest => s++(p.source++rest.source)
def subst (data : List Char → Option (List Char)) : PlainString u → List Char
  | .text s _ => s
  | .field s _ p rest => s++((data p.name).getD noValue++rest.subst data)
def nodes : PlainString u → List Node
  | .text s _ => [.text s]
  | .field s _ p rest => .text s :: .field p.name::rest.nodes

theorem execute_nodes (data : List Char → Option (List Char)) (p : PlainString u) :
    execute data p.nodes=p.subst data := by
  induction p with
  | text s h => exact append_nil s
  | field s h p rest ih =>
    rw [nodes,execute,flatMap_cons,flatMap_cons,← execute,ih]
    rfl

end PlainString

variable {s : List Char} {u : Tables} {c : Char} (p : PlainString u)

theorem splitDelim_text (h : ¬ leftDelim <:+: s) : splitDelim s=(s,none) := by
  induction s with
  | nil => rfl
  | cons c s ih =>
    have hhead : ¬ leftDelim.isPrefixOf (c::s) := fun hp =>
      h (IsPrefix.isInfix <| isPrefixOf_iff_prefix.mp hp)
    have htail : ¬ leftDelim <:+: s := fun hs => h (hs.trans (suffix_cons c s).isInfix)
    rw [splitDelim,if_neg hhead,ih htail]

theorem splitDelim_append (h : ¬ leftDelim <:+: s++['\x7b']) (rest : List Char) :
    splitDelim (s++(leftDelim++rest))=(s,some rest) := by
  induction s with
  | nil => rfl
  | cons c s ih =>
    -- a delimiter at the start would lie within the text and the first brace after it
    have hhead : ¬ leftDelim.isPrefixOf (c::(s++(leftDelim++rest))) := by
      intro hbegins
      have hp := isPrefixOf_iff_prefix.mp hbegins
      have hall : (c::s)++['\x7b'] <+: c::(s++(leftDelim++rest)) := by
        refine ⟨'\x7b' :: rest,?_⟩
        simp [leftDelim]
      have hshort : leftDelim.length≤((c::s)++['\x7b']).length := by simp [leftDelim]
      exact h (prefix_of_prefix_length_le hp hall hshort).isInfix
    have htail : ¬ leftDelim <:+: s++['\x7b'] := fun hs =>
      h (hs.trans (suffix_cons c (s++['\x7b'])).isInfix)
    rw [cons_append,splitDelim,if_neg hhead,ih htail]

theorem takeWhile_append_of_head {p : Char → Bool} (hs : ∀ c∈s, p c)
    {t : List Char} (ht : ∀ c, t.head?=some c → p c=false) :
    (s++t).takeWhile p=s ∧ (s++t).dropWhile p=t := by
  rw [takeWhile_append_of_pos hs,dropWhile_append_of_pos hs]
  cases t with
  | nil => simp
  | cons c t =>
    have hc : ¬ p c := by
      rw [ht c rfl]
      exact Bool.false_ne_true
    rw [takeWhile_cons_of_neg hc,dropWhile_cons_of_neg hc,append_nil]
    exact ⟨rfl,rfl⟩

theorem alphaNumeric_ascii (u : Tables) (hc : c.toNat<128) :
    u.alphaNumeric c=(c == '_' || c.isAlpha||c.isDigit) := by
  rw [Tables.alphaNumeric,u.letter_ascii c hc,u.digit_ascii c hc]

theorem not_alphaNumeric_space (u : Tables) (h : isSpace c) : u.alphaNumeric c=false := by
  simp only [isSpace,Bool.or_eq_true,beq_iff_eq] at h
  rcases h with ((rfl | rfl) | rfl) | rfl
  · rw [alphaNumeric_ascii u (by decide)]; rfl
  · rw [alphaNumeric_ascii u (by decide)]; rfl
  · rw [alphaNumeric_ascii u (by decide)]; rfl
  · rw [alphaNumeric_ascii u (by decide)]; rfl

theorem not_alphaNumeric_brace (u : Tables) : u.alphaNumeric '\x7d' = false := by
  rw [alphaNumeric_ascii u (by decide)]
  rfl

theorem readAction_source (p : Placeholder u) (rest : List Char) :
    readAction u (p.before ++ '.' :: (p.name++(p.after++(rightDelim++rest)))) = some (p.name,rest) := by
  have hdot : (p.before ++ '.' :: (p.name++(p.after++(rightDelim++rest)))).dropWhile isSpace =
      '.' :: (p.name++(p.after++(rightDelim++rest))) := by
    refine (takeWhile_append_of_head p.before_spaces ?_).2
    rintro c ⟨⟩
    rfl
  have hname:=takeWhile_append_of_head (t := p.after++(rightDelim++rest)) p.name_chars (by
    intro c hc
    cases hafter : p.after with
    | nil =>
      rw [hafter] at hc
      cases hc
      exact not_alphaNumeric_brace u
    | cons d after =>
      rw [hafter] at hc
      cases hc
      exact not_alphaNumeric_space u (p.after_spaces c (by rw [hafter]; exact mem_cons_self)))
  have hclose:=(takeWhile_append_of_head (t := rightDelim++rest) p.after_spaces (by
    rintro c ⟨⟩
    rfl)).2
  obtain ⟨c,cs,hstart,hdigit⟩ := p.name_start
  have hgood : ¬ (p.name=[] ∨ p.name.head?.any Char.isDigit) := by
    rw [hstart]
    simp [hdigit]
  have hright : rightDelim.isPrefixOf (rightDelim++rest) :=
    isPrefixOf_iff_prefix.mpr (prefix_append rightDelim rest)
  simp only [readAction,hdot,hname.1,hname.2,hclose,if_neg hgood,hright,if_true]
  rfl

theorem parseFrom_source (n : Nat) (hn : p.source.length<n) : parseFrom u n p.source=some p.nodes := by
  induction p generalizing n with
  | text s h =>
    cases n with
    | zero => exact absurd hn (Nat.not_lt_zero _)
    | succ n => simp only [parseFrom,PlainString.source,splitDelim_text h,PlainString.nodes]
  | field s h p rest ih =>
    cases n with
    | zero => exact absurd hn (Nat.not_lt_zero _)
    | succ n =>
      have hsource : (PlainString.field s h p rest).source =
          s++(leftDelim++(p.before ++ '.' :: (p.name++(p.after++(rightDelim++rest.source))))) := by
        simp [PlainString.source,Placeholder.source]
      have hlen : rest.source.length<n := by
        rw [hsource] at hn
        simp only [length_append,length_cons] at hn
        omega
      rw [hsource]
      simp only [parseFrom,splitDelim_append h,readAction_source,ih n hlen]
      rfl

theorem parse_source : parse u p.source=some p.nodes :=
  parseFrom_source p _ (Nat.lt_succ_self _)

end OpsAgent.Lib.GoTemplate
