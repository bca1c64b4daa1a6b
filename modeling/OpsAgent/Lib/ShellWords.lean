import OpsAgent.Lib.GoStrings

/-!
# How a POSIX shell reads a command line

Token recognition with the three ways of quoting, on bytes.
-/

namespace OpsAgent.Lib.ShellWords
open Lib.GoStrings List

inductive Piece where
  -- quoted: the byte stands for itself
  | literal (b : UInt8)
  | unquoted (b : UInt8)
  -- `$` or a backquote in double quotes
  | expansion (b : UInt8)

inductive Token where
  | word (pieces : List Piece)
  | operator (b : UInt8)
  | comment (text : GoString)

inductive Mode where
  | plain | escaped | single | double | doubleEscaped
  | comment (text : GoString)

def isBlank (b : UInt8) : Bool := b == 0x20||b == 0x09

/-- `& ; | < > ( )` and the newline -/
def isOperator (b : UInt8) : Bool :=
  [0x26,0x3b,0x7c,0x3c,0x3e,0x28,0x29,0x0a].contains b

/-- What a backslash quotes between double quotes: `$`, backquote, `"` and itself. -/
def escapable (b : UInt8) : Bool := [0x24,0x60,0x22,0x5c].contains b
def finish : Option (List Piece) → List Token
  | none => []
  | some pieces => [.word pieces]
def push (current : Option (List Piece)) (p : Piece) : Option (List Piece) :=
  some (current.getD []++[p])

/-- The tokens of the rest of a command line; `none` if a quote is not closed. A pair of quotes makes
a word even if there is nothing between them. -/
def read : Mode → Option (List Piece) → GoString → Option (List Token)
  | .plain, current, [] => some (finish current)
  | .comment text, _, [] => some [.comment text]
  | .escaped, _, [] | .single, _, [] | .double, _, [] | .doubleEscaped, _, [] => none
  | .plain, current, b::s =>
    if isBlank b then (read .plain none s).map (finish current ++ ·)
    else if isOperator b then (read .plain none s).map (finish current ++ .operator b :: ·)
    else if b=0x23 ∧ current=none then read (.comment []) none s
    else if b=0x5c then read .escaped current s
    else if b=0x27 then read .single (some (current.getD [])) s
    else if b=0x22 then read .double (some (current.getD [])) s
    else read .plain (push current (.unquoted b)) s
  | .escaped, current, b::s =>
    -- an escaped newline is removed
    if b=0x0a then read .plain current s else read .plain (push current (.literal b)) s
  | .single, current, b::s =>
    if b=0x27 then read .plain current s else read .single (push current (.literal b)) s
  | .double, current, b::s =>
    if b=0x22 then read .plain current s
    else if b=0x5c then read .doubleEscaped current s
    else if b=0x24 ∨ b=0x60 then read .double (push current (.expansion b)) s
    else read .double (push current (.literal b)) s
  | .doubleEscaped, current, b::s =>
    if b=0x0a then read .double current s
    else if escapable b then read .double (push current (.literal b)) s
    else read .double (push (push current (.literal 0x5c)) (.literal b)) s
  | .comment text, _, b::s =>
    if b=0x0a then (read .plain none s).map (.comment text :: .operator b :: ·)
    else read (.comment (text++[b])) none s

def tokens (line : GoString) : Option (List Token) :=
  read .plain none (line.takeWhile (· != 0))
def literalWord (s : GoString) : Token := .word (s.map .literal)
def quoteBody (s : GoString) : GoString :=
  s.flatMap fun b => if b=0x27 then [0x27,0x5c,0x27,0x27] else [b]
def quote (s : GoString) : GoString := 0x27::(quoteBody s++[0x27])

theorem read_quoteBody (s : GoString) (pieces : List Piece) (rest : GoString) :
    read .single (some pieces) (quoteBody s++0x27::rest) =
      read .plain (some (pieces++s.map .literal)) rest := by
  induction s generalizing pieces with
  | nil =>
    rw [map_nil,append_nil]
    rfl
  | cons b s ih =>
    have hnext:=ih (pieces++[.literal b])
    rw [append_assoc,singleton_append] at hnext
    rw [map_cons,← hnext]
    by_cases hb : b=0x27
    · subst hb
      rfl
    · have hbody : quoteBody (b::s)=b::quoteBody s := by simp [quoteBody,hb]
      rw [hbody,cons_append,read,if_neg hb]
      rfl

theorem read_quote (s : GoString) (current : Option (List Piece)) (rest : GoString) :
    read .plain current (quote s++rest) = read .plain (some (current.getD []++s.map .literal)) rest := by
  have hopen : read .plain current (quote s++rest) =
      read .single (some (current.getD [])) (quoteBody s++0x27::rest) := by
    rw [quote,cons_append,append_assoc,read]
    simp [isBlank,isOperator]
  rw [hopen,read_quoteBody]

theorem read_quoted (w : GoString) (ws : List GoString) :
    read .plain none (quote w++ws.flatMap fun w => 0x20::quote w) = some ((w::ws).map literalWord) := by
  induction ws generalizing w with
  | nil =>
    rw [flatMap_nil,read_quote]
    rfl
  | cons v ws ih =>
    rw [flatMap_cons,cons_append,read_quote,read]
    rw [if_pos (by decide),ih v]
    rfl

theorem mem_quote {s : GoString} {b : UInt8} (h : b∈quote s) : b∈s ∨ b=0x27 ∨ b=0x5c := by
  rw [quote,mem_cons,mem_append,mem_singleton,quoteBody,mem_flatMap] at h
  rcases h with rfl | ⟨c,hc,hb⟩ | rfl
  · exact .inr (.inl rfl)
  · split at hb
    · simp only [mem_cons,not_mem_nil,or_false] at hb
      rcases hb with hb | hb | hb | hb
      · exact .inr (.inl hb)
      · exact .inr (.inr hb)
      · exact .inr (.inl hb)
      · exact .inr (.inl hb)
    · rw [mem_singleton.mp hb]
      exact .inl hc
  · exact .inr (.inl rfl)

end OpsAgent.Lib.ShellWords
