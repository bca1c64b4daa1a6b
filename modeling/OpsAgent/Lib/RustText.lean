import Mathlib.Algebra.Order.Ring.Nat
import OpsAgent.Lib.GoStrings
import OpsAgent.Lib.Json

/-!
# Cutting texts as Rust does

The methods of `str` that cut a text at newlines, at white space or at a character, and
`from_str_radix` for hexadecimal numbers without a sign.
-/

namespace OpsAgent.Lib.RustText
open List Option
open Lib.GoStrings (whiteSpace)

def stripCr (line : List Char) : List Char :=
  if line.getLast?=some '\r' then line.dropLast else line

/-- `str::lines`: a rest without a newline is a line too, and keeps its carriage return. -/
def lines (text : List Char) : List (List Char) :=
  let pieces:=text.splitOn '\n'
  pieces.dropLast.map stripCr++pieces.getLast?.toList.filter (· ≠ [])

/-- `str::split_whitespace` -/
def splitWhitespace (text : List Char) : List (List Char) :=
  (text.splitOnP whiteSpace.contains).filter (· ≠ [])

/-- `str::trim` -/
def trim (text : List Char) : List Char :=
  ((text.dropWhile whiteSpace.contains).reverse.dropWhile whiteSpace.contains).reverse
def split (c : Char) (text : List Char) : List (List Char) := text.splitOn c

/-- `from_str_radix(_, 16)` of an unsigned type with the largest value `max`. -/
def fromStrRadix16 (max : Nat) (text : List Char) : Option Nat :=
  let digits := if text.head?=some '+' ∧ text.tail≠[] then text.tail else text
  if digits=[] then none
  else digits.foldlM (fun n c => (Json.hexValue c).bind fun d =>
    if n*16+d ≤ max then some (n*16+d) else none) 0

theorem lines_line {line : List Char} (h : '\n' ∉ line) (text : List Char) :
    lines (line ++ '\n' :: text)=stripCr line::lines text := by
  have hline : ∀ c∈line, (c == '\n')=false := by
    intro c hc
    rw [beq_eq_false_iff_ne]
    rintro rfl
    exact h hc
  have hne : text.splitOn '\n' ≠ [] := splitOnP_ne_nil _ text
  have hpieces : (line ++ '\n' :: text).splitOn '\n' = line::text.splitOn '\n' := by
    rw [splitOn,splitOnP_append_cons_of_forall_mem hline _ rfl,splitOn]
  simp only [lines,hpieces,dropLast_cons_of_ne_nil hne,map_cons,cons_append,
    getLast?_cons_of_ne_nil hne]

variable {c : Char} (n : Nat)

theorem stripCr_ne_nil {line : List Char} (hc : c∈line) (h : c ≠ '\r') : stripCr line≠[] := by
  rw [stripCr]
  split
  next hlast =>
    obtain ⟨init,rfl⟩ := getLast?_eq_some_iff.mp hlast
    rw [dropLast_concat]
    have hinit:=(mem_append.mp hc).resolve_right fun hmem => h (mem_singleton.mp hmem)
    exact ne_nil_of_mem hinit
  next => exact ne_nil_of_mem hc

theorem stripCr_append (start rest : List Char) (h : start.getLast? ≠ some '\r') :
    ∃ rest', stripCr (start++rest)=start++rest' := by
  by_cases hrest : rest=[]
  · refine ⟨[],?_⟩
    rw [hrest,append_nil,stripCr,if_neg h]
  · rw [stripCr]
    split
    · exact ⟨rest.dropLast,dropLast_append_of_ne_nil hrest⟩
    · exact ⟨rest,rfl⟩

theorem splitWhitespace_blank (hc : whiteSpace.contains c) (text : List Char) :
    splitWhitespace (c::text)=splitWhitespace text := by
  have hnil : ∀ x∈([] : List Char), whiteSpace.contains x=false := nofun
  have hcut:=splitOnP_append_cons_of_forall_mem hnil c hc text
  rw [nil_append] at hcut
  rw [splitWhitespace,hcut,filter_cons]
  rfl

theorem splitWhitespace_field {field : List Char} (hne : field≠[])
    (h : ∀ c∈field, whiteSpace.contains c=false) (hc : whiteSpace.contains c)
    (text : List Char) : splitWhitespace (field++c::text)=field::splitWhitespace text := by
  rw [splitWhitespace,splitOnP_append_cons_of_forall_mem h c hc,filter_cons,
    if_pos (by simpa using hne),splitWhitespace]

theorem trim_ne_nil {text : List Char} (hc : c∈text) (h : c∉whiteSpace) : trim text≠[] := by
  have hkeep : ∀ l : List Char, c∈l → c∈l.dropWhile whiteSpace.contains := by
    intro l hl
    rw [← takeWhile_append_dropWhile (p := whiteSpace.contains) (l := l)] at hl
    refine (mem_append.mp hl).resolve_left fun htake => h ?_
    exact contains_iff_mem.mp (all_eq_true.mp all_takeWhile c htake)
  have hmem:=hkeep _ (mem_reverse.mpr (hkeep _ hc))
  exact ne_nil_of_mem (mem_reverse.mpr hmem)

theorem trim_blank (hc : whiteSpace.contains c) (text : List Char) : trim (text++[c])=trim text := by
  rw [trim,trim,dropWhile_append]
  split
  next hnil =>
    rw [isEmpty_iff.mp hnil,dropWhile_cons,if_pos hc]
    rfl
  next => rw [reverse_append,reverse_singleton,singleton_append,dropWhile_cons,if_pos hc]

theorem trim_enclosed {a b : Char} (ha : whiteSpace.contains a=false)
    (hb : whiteSpace.contains b=false) (text : List Char) : trim (a::text++[b])=a::text++[b] := by
  rw [trim,cons_append,dropWhile_cons,if_neg (by rw [ha]; decide),← cons_append,reverse_append,
    reverse_singleton,singleton_append,dropWhile_cons,if_neg (by rw [hb]; decide),reverse_cons,reverse_reverse]

theorem split_pair {a b : List Char} (ha : c∉a) (hb : c∉b) : split c (a++c::b)=[a,b] := by
  have hnot : ∀ {s : List Char}, c∉s → ∀ x∈s, (x == c)=false := by
    intro s hs x hx
    rw [beq_eq_false_iff_ne]
    rintro rfl
    exact hs hx
  have hlast : splitOnP (· == c) b=[b] := splitOnP_eq_singleton (hnot hb)
  rw [split,splitOn,splitOnP_append_cons_of_forall_mem (hnot ha) _ (by simp),hlast]

def upperDigit (n : Nat) : Char := "0123456789ABCDEF".toList.getD n '0'

/-- The verb `%0wX` for a number of at most `w` digits. -/
def hexField : Nat → Nat → List Char
  | 0, _ => []
  | w+1, n => hexField w (n / 16)++[upperDigit (n % 16)]

theorem upperDigit_mem : upperDigit (n % 16) ∈ "0123456789ABCDEF".toList := by
  have hall : ∀ d<16, upperDigit d ∈ "0123456789ABCDEF".toList := by decide
  exact hall _ (Nat.mod_lt n (by decide))
theorem hexValue_upperDigit : Json.hexValue (upperDigit (n % 16))=some (n % 16) := by
  have hall : ∀ d<16, Json.hexValue (upperDigit d)=some d := by decide +kernel
  exact hall _ (Nat.mod_lt n (by decide))

theorem mem_hexField {w n : Nat} (h : c∈hexField w n) : c ∈ "0123456789ABCDEF".toList := by
  induction w generalizing n with
  | zero => cases h
  | succ w ih =>
    rcases mem_append.mp h with h | h
    · exact ih h
    · rw [mem_singleton.mp h]
      exact upperDigit_mem n

theorem length_hexField (w n : Nat) : (hexField w n).length=w := by
  induction w generalizing n with
  | zero => rfl
  | succ w ih => rw [hexField,length_append,ih,length_singleton]

theorem hexField_append (v w n : Nat) :
    hexField (v+w) n=hexField v (n / 16^w)++hexField w (n % 16^w) := by
  induction w generalizing n with
  | zero => simp [hexField]
  | succ w ih =>
    have hquot : n / 16 / 16^w=n / 16^(w+1) := by rw [Nat.div_div_eq_div_mul,Nat.pow_succ']
    have hrest : n / 16 % 16^w=n % 16^(w+1) / 16 := by rw [Nat.pow_succ',Nat.mod_mul_right_div_self]
    have hlow : n % 16^(w+1) % 16=n % 16 := by rw [Nat.pow_succ',Nat.mod_mul_right_mod]
    rw [← Nat.add_assoc,hexField,hexField,ih,hquot,hrest,hlow,append_assoc]

theorem foldlM_hexField (max w n start : Nat) (h : start*16^w+n ≤ max) (hn : n<16^w) :
    (hexField w n).foldlM (fun n c => (Json.hexValue c).bind fun d =>
      if n*16+d ≤ max then some (n*16+d) else none) start=some (start*16^w+n) := by
  induction w generalizing n with
  | zero =>
    have hzero : n=0 := by simpa using hn
    simp [hexField,hzero]
  | succ w ih =>
    have hquot : n / 16<16^w := by
      rw [Nat.pow_succ] at hn
      omega
    have hpow : start*16^(w+1)=start*16^w*16 := by rw [Nat.pow_succ,Nat.mul_assoc]
    rw [hexField,foldlM_append,ih (n / 16) (by omega) hquot]
    simp only [bind_eq_bind,bind_some,foldlM_cons,foldlM_nil,hexValue_upperDigit,Option.pure_def]
    rw [if_pos (by omega),bind_some]
    congr 1
    omega

theorem fromStrRadix16_hexField {max w n : Nat} (hw : w≠0) (hmax : n ≤ max) (hn : n<16^w) :
    fromStrRadix16 max (hexField w n)=some n := by
  have hlen:=length_hexField w n
  have hplus : ¬ ((hexField w n).head?=some '+' ∧ (hexField w n).tail≠[]) := by
    rintro ⟨hhead,-⟩
    exact absurd (mem_hexField (mem_of_mem_head? hhead)) (by decide)
  have hne : hexField w n≠[] := by
    intro hnil
    rw [hnil] at hlen
    exact hw hlen.symm
  have hread:=foldlM_hexField max w n 0 (by omega) hn
  rw [Nat.zero_mul,Nat.zero_add] at hread
  simp only [fromStrRadix16,if_neg hplus,if_neg hne]
  exact hread

end OpsAgent.Lib.RustText
