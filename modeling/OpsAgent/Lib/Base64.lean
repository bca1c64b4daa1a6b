import Mathlib.Tactic.Common

/-!
# Base64

The standard alphabet with padding.
-/

namespace OpsAgent.Lib.Base64
open List Option

def alphabet : List Char :=
  "ABCDEFGHIJKLMNOPQRSTUVWXYZabcdefghijklmnopqrstuvwxyz0123456789+/".toList
def char (n : Nat) : Char := alphabet.getD n '='
def value? (c : Char) : Option Nat := alphabet.idxOf? c

def encode : List UInt8 → List Char
  | [] => []
  | [a] => [char (a.toNat / 4),char (a.toNat % 4*16), '=', '=']
  | [a,b] =>
    [char (a.toNat / 4),char (a.toNat % 4*16+b.toNat / 16),char (b.toNat % 16*4), '=']
  | a::b::c::rest =>
    char (a.toNat / 4)::char (a.toNat % 4*16+b.toNat / 16) ::
      char (b.toNat % 16*4+c.toNat / 64)::char (c.toNat % 64)::encode rest

/-- The bits that padding leaves over are ignored. -/
def decode : List Char → Option (List UInt8)
  | [] => some []
  | p::q::r::s::rest =>
    if rest=[] ∧ r = '=' ∧ s = '=' then do
      let x ← value? p
      let y ← value? q
      some [UInt8.ofNat (x*4+y / 16)]
    else if rest=[] ∧ s = '=' then do
      let x ← value? p
      let y ← value? q
      let z ← value? r
      some [UInt8.ofNat (x*4+y / 16),UInt8.ofNat (y % 16*16+z / 4)]
    else do
      let x ← value? p
      let y ← value? q
      let z ← value? r
      let v ← value? s
      let bytes ← decode rest
      some (UInt8.ofNat (x*4+y / 16)::UInt8.ofNat (y % 16*16+z / 4) ::
        UInt8.ofNat (z % 4*64+v)::bytes)
  | _ => none

theorem length_alphabet : alphabet.length=64 := by decide +kernel

variable {n : Nat}

theorem char_spec (h : n<64) : value? (char n)=some n ∧ char n ≠ '=' ∧ (char n).utf8Size=1 := by
  have hall : ∀ n<64, value? (char n)=some n ∧ char n ≠ '=' ∧ (char n).utf8Size=1 := by
    decide +kernel
  exact hall n h
theorem value?_char (h : n<64) : value? (char n)=some n := (char_spec h).1
theorem char_ne_pad (h : n<64) : char n ≠ '=' := (char_spec h).2.1

theorem char_utf8Size (n : Nat) : (char n).utf8Size=1 := by
  by_cases h : n<64
  · exact (char_spec h).2.2
  · have hlen : alphabet.length≤n := by
      rw [length_alphabet]
      exact Nat.le_of_not_lt h
    have hnone : char n = '=' := by rw [char,getD_eq_getElem?_getD,getElem?_eq_none hlen,getD_none]
    rw [hnone]
    rfl

theorem ofNat_eq_of_toNat {a : UInt8} (h : n=a.toNat) : UInt8.ofNat n=a := by
  rw [h,UInt8.ofNat_toNat]

variable (bytes : List UInt8) {cs : List Char}

theorem decode_encode : decode (encode bytes)=some bytes := by
  fun_induction encode bytes with
  | case1 => rfl
  | case2 a =>
    have ha:=a.toNat_lt
    have h₁:=value?_char (n := a.toNat / 4) (by omega)
    have h₂:=value?_char (n := a.toNat % 4*16) (by omega)
    simp only [decode,h₁,h₂,and_self,if_true,bind_eq_bind,bind_some]
    rw [ofNat_eq_of_toNat (a := a) (by omega)]
  | case3 a b =>
    have ha:=a.toNat_lt
    have hb:=b.toNat_lt
    have h₁:=value?_char (n := a.toNat / 4) (by omega)
    have h₂:=value?_char (n := a.toNat % 4*16+b.toNat / 16) (by omega)
    have h₃:=value?_char (n := b.toNat % 16*4) (by omega)
    have hpad:=char_ne_pad (n := b.toNat % 16*4) (by omega)
    simp only [decode,hpad,h₁,h₂,h₃,false_and,and_false,if_false,and_self,if_true,
      bind_eq_bind,bind_some]
    rw [ofNat_eq_of_toNat (a := a) (by omega),ofNat_eq_of_toNat (a := b) (by omega)]
  | case4 a b c rest ih =>
    have ha:=a.toNat_lt
    have hb:=b.toNat_lt
    have hc:=c.toNat_lt
    have h₁:=value?_char (n := a.toNat / 4) (by omega)
    have h₂:=value?_char (n := a.toNat % 4*16+b.toNat / 16) (by omega)
    have h₃:=value?_char (n := b.toNat % 16*4+c.toNat / 64) (by omega)
    have h₄:=value?_char (n := c.toNat % 64) (by omega)
    have hpad:=char_ne_pad (n := c.toNat % 64) (by omega)
    simp only [decode,hpad,h₁,h₂,h₃,h₄,ih,and_false,if_false,bind_eq_bind,bind_some]
    rw [ofNat_eq_of_toNat (a := a) (by omega),ofNat_eq_of_toNat (a := b) (by omega),
      ofNat_eq_of_toNat (a := c) (by omega)]

theorem length_encode : (encode bytes).length=4*((bytes.length+2) / 3) := by
  fun_induction encode bytes with
  | case1 => rfl
  | case2 a | case3 a b => simp
  | case4 a b c rest ih =>
    simp only [length_cons,ih]
    omega

theorem encode_append (a b : List UInt8) (h : a.length % 3=0) : encode (a++b)=encode a++encode b := by
  fun_induction encode a with
  | case1 => rfl
  | case2 x | case3 x y => simp at h
  | case4 x y z rest ih =>
    have hrest : rest.length % 3=0 := by
      simp only [length_cons] at h
      omega
    simp [encode,ih hrest]

theorem length_of_decode {bytes : List UInt8} (h : decode cs=some bytes) : cs.length % 4=0 := by
  fun_induction decode cs generalizing bytes with
  | case1 => rfl
  | case2 p q r s rest hend | case3 p q r s rest _ hend => simp [hend.1]
  | case4 p q r s rest hpad hone ih =>
    simp only [bind_eq_bind,bind_eq_some_iff] at h
    obtain ⟨x,-,y,-,z,-,v,-,more,hmore,-⟩ := h
    have hrest:=ih hmore
    simp only [length_cons]
    omega
  | case5 => cases h

theorem utf8Size_of_mem_encode : ∀ c∈encode bytes, c.utf8Size=1 := by
  have hpad : '='.utf8Size=1 := rfl
  fun_induction encode bytes with
  | case1 => simp
  | case2 a | case3 a b => simp [char_utf8Size,hpad]
  | case4 a b c rest ih => simpa [char_utf8Size] using ih

theorem utf8ByteSize_ofList (h : ∀ c∈cs, c.utf8Size=1) : (String.ofList cs).utf8ByteSize=cs.length := by
  induction cs with
  | nil => rfl
  | cons c cs ih =>
    rw [String.ofList_cons,String.utf8ByteSize_append,String.utf8ByteSize_singleton,
      h c mem_cons_self,ih fun d hd => h d (mem_cons_of_mem c hd),length_cons]
    omega

theorem utf8ByteSize_encode : (String.ofList (encode bytes)).utf8ByteSize=4*((bytes.length+2) / 3) := by
  rw [utf8ByteSize_ofList (utf8Size_of_mem_encode bytes),length_encode]

end OpsAgent.Lib.Base64
