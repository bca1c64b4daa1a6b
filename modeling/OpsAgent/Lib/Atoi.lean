import OpsAgent.Lib.GoStrings
import Mathlib.Tactic.IntervalCases

/-!
# Decimal numbers in texts

`strconv.Atoi` on the bytes of a text, and that it reads what the verb `%d` writes.
-/

namespace OpsAgent.Lib.Atoi
open Lib.GoStrings List

inductive AtoiError where
  | invalid | outOfRange
  deriving DecidableEq

def isDigit (b : UInt8) : Bool := 0x30≤b&&b≤0x39
def digitValue (b : UInt8) : Nat := b.toNat-0x30

/- The number that digits stand for, read after those of `n`. -/
def value (n : Nat) (s : GoString) : Nat := s.foldl (fun n b => n*10+digitValue b) n

/- The loop of `ParseUint`, which gives up at the first digit that does not fit. -/
def readUint (n : Nat) : GoString → Except AtoiError Nat
  | [] => .ok n
  | b::s =>
    if !isDigit b then .error .invalid
    else if n*10+digitValue b ≥ 1 <<< 64 then .error .outOfRange
    else readUint (n*10+digitValue b) s

def splitSign : GoString → Bool × GoString
  | [] => (false,[])
  | b::s => if b=0x2b then (false,s) else if b=0x2d then (true,s) else (false,b::s)

def atoi (s : GoString) : Except AtoiError Int :=
  let (neg,digits) := splitSign s
  if digits=[] then .error .invalid
  else match readUint 0 digits with
    | .error err => .error err
    | .ok n =>
      if neg then if n > 1 <<< 63 then .error .outOfRange else .ok (-n)
      else if n ≥ 1 <<< 63 then .error .outOfRange else .ok n

theorem le_value (s : GoString) (n : Nat) : n≤value n s := by
  induction s generalizing n with
  | nil => exact Nat.le_refl n
  | cons b s ih =>
    have hrest : n*10+digitValue b≤value n (b::s) := ih _
    omega

theorem readUint_of_digits {s : GoString} (hdigits : ∀ b∈s, isDigit b) {n : Nat}
    (hfit : value n s<1 <<< 64) : readUint n s=.ok (value n s) := by
  induction s generalizing n with
  | nil => rfl
  | cons b s ih =>
    obtain ⟨hb,hs⟩ := forall_mem_cons.mp hdigits
    have hfit' : value (n*10+digitValue b) s<1 <<< 64 := hfit
    have hle:=le_value s (n*10+digitValue b)
    rw [readUint,hb,if_neg (by decide),if_neg (by omega)]
    exact ih hs hfit'

theorem splitSign_digit {b : UInt8} (h : isDigit b) (s : GoString) : splitSign (b::s)=(false,b::s) := by
  have hplus : b≠0x2b := by
    rintro rfl
    exact absurd h (by decide)
  have hminus : b≠0x2d := by
    rintro rfl
    exact absurd h (by decide)
  rw [splitSign,if_neg hplus,if_neg hminus]

theorem atoi_of_digits {s : GoString} (hne : s≠[]) (hdigits : ∀ b∈s, isDigit b)
    (hfit : value 0 s<1 <<< 63) : atoi s=.ok (value 0 s : Nat) := by
  obtain ⟨b,t,rfl⟩ := exists_cons_of_ne_nil hne
  have hwide : value 0 (b::t)<1 <<< 64 := Nat.lt_trans hfit (by decide)
  rw [atoi,splitSign_digit (hdigits b mem_cons_self)]
  dsimp only
  rw [if_neg hne,readUint_of_digits hdigits hwide]
  dsimp only
  rw [if_neg (by decide),if_neg (by omega)]

theorem byte_of_isDigit {c : Char} (h : c.isDigit) :
    ∃ b, String.utf8EncodeChar c=[b] ∧ isDigit b ∧ digitValue b=c.toNat - '0'.toNat := by
  simp only [Char.isDigit,Bool.and_eq_true,decide_eq_true_eq] at h
  have hlow : 48≤c.toNat := h.1
  have hhigh : c.toNat≤57 := h.2
  rw [← Char.ofNat_toNat c]
  generalize c.toNat=n at hlow hhigh
  interval_cases n <;> exact ⟨_,rfl,rfl,rfl⟩

theorem digits_encode {cs : List Char} (h : ∀ c∈cs, c.isDigit) :
    (∀ b∈cs.flatMap String.utf8EncodeChar, isDigit b) ∧
      ∀ n, value n (cs.flatMap String.utf8EncodeChar)=Nat.ofDigitChars 10 cs n := by
  induction cs with
  | nil => exact ⟨fun b hb => absurd hb not_mem_nil,fun n => rfl⟩
  | cons c cs ih =>
    obtain ⟨hc,hcs⟩ := forall_mem_cons.mp h
    obtain ⟨b,hcode,hdigit,hvalue⟩ := byte_of_isDigit hc
    obtain ⟨hall,hval⟩ := ih hcs
    rw [flatMap_cons,hcode,singleton_append]
    refine ⟨forall_mem_cons.mpr ⟨hdigit,hall⟩,fun n => ?_⟩
    rw [Nat.ofDigitChars_cons,← hvalue,Nat.mul_comm]
    exact hval _

theorem decimal_natCast (n : Nat) :
    decimal (n : Int)=(Nat.toDigits 10 n).flatMap String.utf8EncodeChar := by
  have htext : toString (n : Int)=String.ofList (Nat.toDigits 10 n) :=
    Nat.toString_eq_ofList_toDigits
  rw [decimal,utf8,htext,String.toByteArray_ofList,utf8Encode,data_toByteArray]

theorem decimal_spec (n : Nat) : decimal (n : Int)≠[] ∧ (∀ b∈decimal (n : Int), isDigit b) ∧
    value 0 (decimal (n : Int))=n := by
  have hdigits : ∀ c∈Nat.toDigits 10 n, c.isDigit :=
    fun _ hc => Nat.isDigit_of_mem_toDigits (by decide) (by decide) hc
  obtain ⟨hall,hval⟩ := digits_encode hdigits
  rw [decimal_natCast]
  refine ⟨?_,hall,(hval 0).trans Nat.ofDigitChars_ten_toDigits⟩
  obtain ⟨c,cs,hcs⟩ := exists_cons_of_ne_nil (Nat.toDigits_ne_nil (b := 10) (n := n))
  rw [hcs,flatMap_cons]
  exact append_ne_nil_of_left_ne_nil String.utf8EncodeChar_ne_nil _

theorem atoi_decimal {n : Nat} (h : n<1 <<< 63) : atoi (decimal (n : Int))=.ok (n : Int) := by
  obtain ⟨hne,hdigits,hvalue⟩ := decimal_spec n
  rw [atoi_of_digits hne hdigits (by rwa [hvalue]),hvalue]

end OpsAgent.Lib.Atoi
