import OpsAgent.Lib.FloatArith

/-!
# Exact results of the arithmetic of `float64`

A result that is a number of the format is not rounded.
-/

namespace OpsAgent.Lib.GoValue.Float64

variable (m : Nat)

theorem mantissa_lt : mantissa m<2^53 := by
  unfold mantissa
  split <;> omega

theorem magValue_lt_succ : magValue m < magValue (m+1) := by
  by_cases hlast : m % 2^52+1<2^52
  · have hdiv : (m+1) / 2^52=m / 2^52 := by omega
    have hmod : (m+1) % 2^52=m % 2^52+1 := by omega
    have hmant : mantissa (m+1)=mantissa m+1 := by
      unfold mantissa
      rw [hdiv,hmod]
      split <;> omega
    have hexp : exponent (m+1)=exponent m := by rw [exponent,exponent,hdiv]
    rw [magValue,magValue,hexp,hmant]
    refine mul_lt_mul_of_pos_right ?_ (two_zpow_pos _)
    exact_mod_cast Nat.lt_succ_self _
  · have hdiv : (m+1) / 2^52=m / 2^52+1 := by omega
    have hmod : (m+1) % 2^52=0 := by omega
    have hmant : mantissa (m+1)=2^52 := by
      unfold mantissa
      rw [hdiv,hmod]
      simp
    by_cases hsub : m / 2^52=0
    · have hexp : exponent (m+1)=exponent m := by
        rw [exponent,exponent,hdiv,hsub]
        rfl
      have hm : mantissa m<2^52 := by
        unfold mantissa
        rw [if_pos hsub]
        omega
      rw [magValue,magValue,hexp,hmant]
      refine mul_lt_mul_of_pos_right ?_ (two_zpow_pos _)
      exact_mod_cast hm
    · have hexp : exponent (m+1)=exponent m+1 := by
        have hnormal:=exponent_normal m hsub
        have hnext:=exponent_normal (m+1) (by omega)
        omega
      rw [magValue,magValue,hexp,hmant,zpow_add_one₀ two_ne_zero]
      have hm : (mantissa m : ℚ)<2^53 := by exact_mod_cast mantissa_lt m
      calc (mantissa m : ℚ)*2^exponent m<2^53*2^exponent m :=
            mul_lt_mul_of_pos_right hm (two_zpow_pos _)
        _=(2^52 : ℕ)*(2^exponent m*2) := by push_cast; ring

theorem magValue_strictMono : StrictMono magValue := strictMono_nat_of_lt_succ magValue_lt_succ
theorem magValue_nonneg : 0 ≤ magValue m :=
  mul_nonneg (Nat.cast_nonneg _) (two_zpow_pos _).le

theorem value_lt_value_iff (x y : Float64) : x.value<y.value ↔ x.key<y.key := by
  have hx:=magValue_nonneg x.mag
  have hy:=magValue_nonneg y.mag
  have hzero : magValue 0=0 := by simp [magValue,mantissa]
  have hlt : magValue x.mag < magValue y.mag ↔ x.mag<y.mag := magValue_strictMono.lt_iff_lt
  have hgt : magValue y.mag < magValue x.mag ↔ y.mag<x.mag := magValue_strictMono.lt_iff_lt
  have hposx : 0 < magValue x.mag ↔ 0<x.mag := by rw [← hzero,magValue_strictMono.lt_iff_lt]
  have hposy : 0 < magValue y.mag ↔ 0<y.mag := by rw [← hzero,magValue_strictMono.lt_iff_lt]
  unfold value key
  split
  · split
    · rw [neg_lt_neg_iff,neg_lt_neg_iff,hgt,Nat.cast_lt]
    · constructor
      · intro h
        by_contra hle
        have hx0 : ¬ 0<x.mag := by omega
        have hy0 : ¬ 0<y.mag := by omega
        rw [← hposx] at hx0
        rw [← hposy] at hy0
        linarith
      · intro h
        by_cases hx0 : 0<x.mag
        · have := hposx.mpr hx0
          linarith
        · have := hposy.mpr (by omega)
          linarith
  · split
    · constructor
      · intro h
        linarith
      · intro h
        omega
    · rw [hlt,Nat.cast_lt]

variable {x y : Float64}

theorem lt_iff_value (hx : x.isFinite) (hy : y.isFinite) : lt x y ↔ x.value<y.value := by
  rw [lt,isNaN_of_isFinite x hx,isNaN_of_isFinite y hy,value_lt_value_iff]
  simp

theorem isZero_iff (x : Float64) : x.isZero ↔ x.mag=0 := by
  have hbits : (x.bits.extractLsb' 0 63).toNat=x.mag := by
    rw [BitVec.extractLsb'_toNat,Nat.shiftRight_zero]
    rfl
  rw [isZero,beq_iff_eq,← hbits]
  constructor
  · intro h
    rw [h]
    rfl
  · intro h
    exact BitVec.eq_of_toNat_eq h

theorem value_eq_of_eq (h : x.eq y) : x.value=y.value := by
  simp only [eq,Bool.and_eq_true,Bool.or_eq_true,beq_iff_eq] at h
  rcases h.2 with rfl | ⟨hx,hy⟩
  · rfl
  · rw [(value_eq_zero_iff x).mpr ((isZero_iff x).mp hx),
      (value_eq_zero_iff y).mpr ((isZero_iff y).mp hy)]

theorem isFinite_of_between {z : Float64} (hy : y.isNaN=false) (hx : x.isFinite)
    (hz : z.isFinite) (hxy : y.lt x=false) (hyz : z.lt y=false) : y.isFinite := by
  have hx' : x.mag < infMag := of_decide_eq_true hx
  have hz' : z.mag < infMag := of_decide_eq_true hz
  have hlow : x.key≤y.key := by simpa [lt,hy,isNaN_of_isFinite x hx] using hxy
  have hhigh : y.key≤z.key := by simpa [lt,hy,isNaN_of_isFinite z hz] using hyz
  have hkey : ∀ w : Float64, w.key.natAbs=w.mag := by
    intro w
    unfold key
    split <;> omega
  have hxk:=hkey x
  have hyk:=hkey y
  have hzk:=hkey z
  exact decide_eq_true (by omega)

theorem mag_ofMag {m : Nat} (h : m ≤ infMag) (neg : Bool) : (ofMag neg m).mag=m := by
  unfold infMag at h
  unfold ofMag mag
  rw [BitVec.toNat_ofNat]
  split <;> omega

theorem negative_ofMag (neg : Bool) : (ofMag neg m).negative=neg := by
  unfold ofMag negative
  rw [BitVec.msb_eq_decide,BitVec.toNat_ofNat]
  cases neg <;> simp <;> omega

/-- The number is finite and has a value without rounding. -/
structure Denotes (x : Float64) (q : ℚ) : Prop where
  finite : x.isFinite
  value : x.value=q

def Fits (q : ℚ) : Prop := ∃ m < infMag, magValue m = |q|

variable {q : ℚ} {n : ℤ} {p : ℚ}

theorem denotes_ofRat (h : Fits q) (neg : Bool) : (ofRat neg q).Denotes q := by
  obtain ⟨m,hm,hq⟩ := h
  have hof : ofRat neg q=ofMag (if q=0 then neg else decide (q<0)) m := by
    rw [ofRat,← hq,nearestMag_magValue,min_eq_right hm.le]
  have hmag:=mag_ofMag hm.le (if q=0 then neg else decide (q<0))
  have hneg:=negative_ofMag m (if q=0 then neg else decide (q<0))
  rw [hof]
  refine ⟨?_,?_⟩
  · rw [isFinite,hmag]
    exact decide_eq_true hm
  · rw [value,hmag,hneg,hq]
    by_cases h0 : q=0
    · simp [h0]
    · rw [if_neg h0]
      by_cases hlt : q<0
      · rw [if_pos (decide_eq_true hlt),abs_of_neg hlt,neg_neg]
      · rw [if_neg (by simpa using hlt),abs_of_nonneg (not_lt.mp hlt)]

theorem denotes_neg (h : x.Denotes q) : (neg x).Denotes (-q) := by
  have hm : x.mag ≤ infMag := (of_decide_eq_true h.finite : x.mag < infMag).le
  have hmag:=mag_ofMag hm (!x.negative)
  have hneg:=negative_ofMag x.mag (!x.negative)
  refine ⟨?_,?_⟩
  · rw [isFinite,neg,hmag]
    exact h.finite
  · rw [value,neg,hmag,hneg,← h.value,value]
    cases x.negative <;> simp

theorem denotes_add (hx : x.Denotes p) (hy : y.Denotes q) (h : Fits (p+q)) :
    (add x y).Denotes (p+q) := by
  rw [add,isNaN_of_isFinite x hx.finite,isNaN_of_isFinite y hy.finite,hx.finite,hy.finite,
    hx.value,hy.value]
  exact denotes_ofRat h _

theorem denotes_sub (hx : x.Denotes p) (hy : y.Denotes q) (h : Fits (p-q)) :
    (sub x y).Denotes (p-q) := by
  rw [sub_eq_add_neg] at h ⊢
  exact denotes_add hx (denotes_neg hy) h

theorem exists_mag_of_lt {n : Nat} (h0 : n≠0) (hn : n<2^53) : ∃ m < infMag, magValue m=n := by
  have hlog : Nat.log 2 n≤52 := by
    have := Nat.log_lt_of_lt_pow h0 hn
    omega
  obtain ⟨j,hj⟩ : ∃ j, Nat.log 2 n+j=52 := ⟨52-Nat.log 2 n,by omega⟩
  have hlow : 2^52≤n*2^j := by
    calc 2^52=2^Nat.log 2 n*2^j := by rw [← pow_add,hj]
      _≤n*2^j := Nat.mul_le_mul_right _ (Nat.pow_log_le_self 2 h0)
  have hhigh : n*2^j<2^53 := by
    calc n*2^j<2^(Nat.log 2 n+1)*2^j :=
          Nat.mul_lt_mul_of_pos_right (Nat.lt_pow_succ_log_self (by norm_num) n) (by positivity)
      _=2^53 := by
        rw [← pow_add]
        congr 1
        omega
  refine ⟨(1075-j)*2^52+(n*2^j-2^52),?_,?_⟩
  · unfold infMag
    omega
  · have hdiv : ((1075-j)*2^52+(n*2^j-2^52)) / 2^52=1075-j := by omega
    have hmod : ((1075-j)*2^52+(n*2^j-2^52)) % 2^52=n*2^j-2^52 := by omega
    have hmant : mantissa ((1075-j)*2^52+(n*2^j-2^52))=n*2^j := by
      rw [mantissa,hdiv,hmod,if_neg (by omega)]
      omega
    have hexp : exponent ((1075-j)*2^52+(n*2^j-2^52)) = -(j : ℤ) := by
      rw [exponent,hdiv]
      omega
    rw [magValue,hmant,hexp,zpow_neg,zpow_natCast]
    push_cast
    rw [mul_assoc,mul_inv_cancel₀ (by positivity),mul_one]

theorem abs_intCast (n : ℤ) : |(n : ℚ)| = (n.natAbs : ℚ) := by
  rw [← Int.cast_abs,Int.abs_eq_natAbs,Int.cast_natCast]

theorem fits_intCast (h : n.natAbs≤2^53) : Fits n := by
  unfold Fits
  rw [abs_intCast]
  by_cases h0 : n.natAbs=0
  · rw [h0]
    exact ⟨0,by decide,by simp [magValue,mantissa]⟩
  · by_cases htop : n.natAbs=2^53
    · rw [htop]
      refine ⟨1076*2^52,by decide,?_⟩
      have hmant : mantissa (1076*2^52)=2^52 := by decide
      have hexp : exponent (1076*2^52)=1 := by decide
      rw [magValue,hmant,hexp]
      norm_num
    · exact exists_mag_of_lt h0 (by omega)

theorem denotes_ofInt (h : Fits n) : (ofInt n).Denotes n := by
  have hof : ofInt n=ofRat false n := by
    obtain ⟨m,hm,hq⟩ := h
    have hmin : min infMag (nearestMag |(n : ℚ)|)=nearestMag |(n : ℚ)| := by
      rw [← hq,nearestMag_magValue]
      exact min_eq_right hm.le
    rw [ofInt,ofRat,hmin,abs_intCast]
    congr 1
    by_cases h0 : n=0
    · simp [h0]
    · simp [h0]
  rw [hof]
  exact denotes_ofRat h false

theorem toInt64_of_denotes (h : x.Denotes n) (hlow : -2^63≤n) (hhigh : n<2^63)
    (unfit : Float64 → Int64) : toInt64 unfit x=Int64.ofInt n := by
  have hfloor : (if x.negative then -⌊magValue x.mag⌋ else ⌊magValue x.mag⌋ : ℤ)=n := by
    have hv:=h.value
    unfold value at hv
    split at hv
    · rename_i hneg
      have hmag : magValue x.mag=((-n : ℤ) : ℚ) := by
        push_cast
        linarith
      rw [if_pos hneg,hmag,Int.floor_intCast,neg_neg]
    · rename_i hneg
      rw [if_neg hneg,hv,Int.floor_intCast]
  rw [toInt64,hfloor,if_pos ⟨h.finite,hlow,hhigh⟩]

end OpsAgent.Lib.GoValue.Float64
