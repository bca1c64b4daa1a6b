import Mathlib.Algebra.Order.Floor.Ring

/-!
# Linear interpolation in a list

A position between the indices of a list has a value: that of the straight line between the two
neighbouring elements.
-/

namespace OpsAgent.Lib.Interpolation
open List

variable {K : Type*} [Field K] [LinearOrder K] [FloorRing K]

def line (a b q : K) : K := a+(b-a)*(q - ⌊q⌋)

def valueAt (l : List K) (q : K) : Option K :=
  if q<0 then none
  else match l[⌊q⌋.toNat]?, l[⌈q⌉.toNat]? with
    | some a, some b => some (line a b q)
    | _, _ => none

theorem getElem?_mono {α : Type*} [Preorder α] {l : List α} (hs : l.Pairwise (· ≤ ·)) {i j : ℕ}
    {a b : α} (hi : l[i]?=some a) (hj : l[j]?=some b) (hij : i≤j) : a≤b := by
  obtain ⟨hlt,rfl⟩ := List.getElem?_eq_some_iff.mp hi
  obtain ⟨hlt',rfl⟩ := List.getElem?_eq_some_iff.mp hj
  rcases Nat.lt_or_eq_of_le hij with h | rfl
  · exact pairwise_iff_getElem.mp hs i j hlt hlt' h
  · exact le_rfl

theorem ceil_lt_length {l : List K} {q : K} (hq : q≤(l.length : K)-1) (hl : l≠[]) :
    ⌈q⌉.toNat<l.length := by
  have hpos : 0<l.length := length_pos_iff.mpr hl
  have hceil : ⌈q⌉ ≤ (l.length : ℤ)-1 := by
    rw [Int.ceil_le]
    push_cast
    exact hq
  omega

variable [IsStrictOrderedRing K]

theorem floor_le_ceil_toNat (q : K) : ⌊q⌋.toNat ≤ ⌈q⌉.toNat :=
  Int.toNat_le_toNat (Int.floor_le_ceil q)

theorem line_le {a b q : K} (h : a≤b) : a≤line a b q ∧ line a b q≤b := by
  have hlow : 0≤q - ⌊q⌋ := sub_nonneg.mpr (Int.floor_le q)
  have hhigh : q - ⌊q⌋ ≤ 1 := by
    have hlt:=Int.lt_floor_add_one q
    linarith
  have hdiff : 0≤b-a := sub_nonneg.mpr h
  have hprod : 0≤(b-a)*(q - ⌊q⌋) := mul_nonneg hdiff hlow
  have hle : (b-a)*(q - ⌊q⌋)≤b-a := mul_le_of_le_one_right hdiff hhigh
  unfold line
  exact ⟨by linarith,by linarith⟩

theorem line_mono {a b c p q : K} (hab : a≤b) (hbc : b≤c) (hpq : p≤q) (hfloor : ⌊p⌋ = ⌊q⌋) :
    line a b p≤line a c q := by
  have hlow : 0≤p - ⌊p⌋ := sub_nonneg.mpr (Int.floor_le p)
  have hstep : p - ⌊p⌋ ≤ q - ⌊q⌋ := by
    rw [hfloor]
    linarith
  have hprod : (b-a)*(p - ⌊p⌋)≤(c-a)*(q - ⌊q⌋) :=
    mul_le_mul (by linarith) hstep hlow (by linarith)
  unfold line
  linarith

variable {l : List K} {p q : K}

theorem valueAt_some (h0 : 0≤q) (hq : q≤(l.length : K)-1) (hl : l≠[]) :
    ∃ a b, l[⌊q⌋.toNat]?=some a ∧ l[⌈q⌉.toNat]?=some b ∧ valueAt l q=some (line a b q) := by
  have hceil:=ceil_lt_length hq hl
  have hfloor : ⌊q⌋.toNat<l.length := lt_of_le_of_lt (floor_le_ceil_toNat q) hceil
  refine ⟨_,_,getElem?_eq_getElem hfloor,getElem?_eq_getElem hceil,?_⟩
  rw [valueAt,if_neg (not_lt.mpr h0),getElem?_eq_getElem hfloor,getElem?_eq_getElem hceil]

theorem valueAt_mono (hs : l.Pairwise (· ≤ ·)) (h0 : 0≤p) (hpq : p≤q)
    (hq : q≤(l.length : K)-1) (hl : l≠[]) {x y : K} (hx : valueAt l p=some x)
    (hy : valueAt l q=some y) : x≤y := by
  obtain ⟨a,b,ha,hb,hval⟩ := valueAt_some h0 (hpq.trans hq) hl
  obtain ⟨c,d,hc,hd,hval'⟩ := valueAt_some (h0.trans hpq) hq hl
  cases hx.symm.trans hval
  cases hy.symm.trans hval'
  have hab:=getElem?_mono hs ha hb (floor_le_ceil_toNat p)
  have hcd:=getElem?_mono hs hc hd (floor_le_ceil_toNat q)
  rcases (Int.floor_mono hpq).lt_or_eq with hlt | heq
  · have hceil : ⌈p⌉ ≤ ⌊q⌋ := by
      rw [Int.ceil_le]
      have hnext : ((⌊p⌋ + 1 : ℤ) : K) ≤ ⌊q⌋ := by exact_mod_cast hlt
      have hp:=Int.lt_floor_add_one p
      push_cast at hnext
      linarith
    have hbc:=getElem?_mono hs hb hc (Int.toNat_le_toNat hceil)
    exact ((line_le hab).2.trans hbc).trans (line_le hcd).1
  · rw [heq] at ha
    cases ha.symm.trans hc
    exact line_mono hab (getElem?_mono hs hb hd (Int.toNat_le_toNat (Int.ceil_mono hpq))) hpq heq

theorem valueAt_natCast {i : ℕ} {a : K} (h : l[i]?=some a) : valueAt l (i : K)=some a := by
  have hfloor : ⌊(i : K)⌋.toNat=i := by
    rw [Int.floor_natCast]
    rfl
  have hceil : ⌈(i : K)⌉.toNat=i := by
    rw [Int.ceil_natCast]
    rfl
  have hpos : ¬ (i : K)<0 := not_lt.mpr (Nat.cast_nonneg i)
  rw [valueAt,if_neg hpos,hfloor,hceil,h]
  simp [line]

end OpsAgent.Lib.Interpolation
