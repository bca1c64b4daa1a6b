import Mathlib.Data.Int.Log
import Mathlib.Data.Rat.Floor
import Mathlib.Tactic.Positivity
import OpsAgent.Lib.GoValue

/-!
# The numbers of a `float64`

The bits below the sign count through the non-negative values in order, so a magnitude is a natural
number.
-/

namespace OpsAgent.Lib.GoValue.Float64

def negative (x : Float64) : Bool := x.bits.msb
def mag (x : Float64) : Nat := x.bits.toNat % 2^63
def infMag : Nat := 0x7ff*2^52
def isFinite (x : Float64) : Bool := x.mag < infMag
def ofMag (neg : Bool) (m : Nat) : Float64 :=
  ⟨BitVec.ofNat 64 ((if neg then 2^63 else 0)+m % 2^63)⟩
def inf (neg : Bool) : Float64 := ofMag neg infMag
def nan : Float64 := ⟨0x7ff8000000000001#64⟩
def mantissa (m : Nat) : Nat := if m / 2^52=0 then m % 2^52 else 2^52+m % 2^52
def exponent (m : Nat) : Int := max (m / 2^52 : Nat) 1-1075
def magValue (m : Nat) : ℚ := mantissa m*2^exponent m
def roundHalfEven (q : ℚ) : ℤ :=
  if q - ⌊q⌋ < 1 / 2 then ⌊q⌋
  else if 1 / 2<q - ⌊q⌋ then ⌊q⌋ + 1
  else if ⌊q⌋ % 2=0 then ⌊q⌋ else ⌊q⌋ + 1

theorem roundHalfEven_natCast (n : Nat) : roundHalfEven n=n := by simp [roundHalfEven]

def nearestMag (q : ℚ) : Nat :=
  if q≤0 then 0
  else
    let e:=max (Int.log 2 q) (-1022)
    ((e+1022)*2^52+roundHalfEven (q / 2^(e-52))).toNat

theorem two_zpow_pos (e : ℤ) : (0 : ℚ)<2^e := zpow_pos (by norm_num) e

variable (m : Nat) (x : Float64)

theorem magValue_pos (h : m≠0) : 0 < magValue m := by
  have hm : 0 < mantissa m := by
    unfold mantissa
    split <;> omega
  exact mul_pos (Nat.cast_pos.mpr hm) (two_zpow_pos _)

theorem exponent_subnormal (he : m / 2^52=0) : exponent m = -1074 := by
  rw [exponent,he]
  rfl
theorem exponent_normal (he : m / 2^52≠0) : exponent m=(m / 2^52 : Nat)-1075 := by
  rw [exponent,max_eq_left (by exact_mod_cast Nat.one_le_iff_ne_zero.mpr he)]

theorem log_magValue_subnormal (h : m≠0) (he : m / 2^52=0) : Int.log 2 (magValue m) < -1022 := by
  rw [← Int.lt_zpow_iff_log_lt (by norm_num) (magValue_pos m h)]
  have hm : (mantissa m : ℚ)<2^(52 : ℤ) := by
    have hlt : m % 2^52<2^52 := Nat.mod_lt _ (by norm_num)
    rw [mantissa,if_pos he]
    exact_mod_cast hlt
  calc magValue m=mantissa m*2^(-1074 : ℤ) := by rw [magValue,exponent_subnormal m he]
    _<2^(52 : ℤ)*2^(-1074 : ℤ) := mul_lt_mul_of_pos_right hm (two_zpow_pos _)
    _=((2 : ℕ) : ℚ)^(-1022 : ℤ) := by
      rw [Nat.cast_ofNat,← zpow_add₀ two_ne_zero]
      rfl

theorem log_magValue_normal (he : m / 2^52≠0) : Int.log 2 (magValue m)=exponent m+52 := by
  have h0 : m≠0 := by
    rintro rfl
    exact he rfl
  have hlt : m % 2^52<2^52 := Nat.mod_lt _ (by norm_num)
  have hm : mantissa m=2^52+m % 2^52 := by rw [mantissa,if_neg he]
  have hlow : (2 : ℚ)^(52 : ℤ) ≤ mantissa m := by
    rw [hm]
    exact_mod_cast Nat.le_add_right _ _
  have hhigh : (mantissa m : ℚ)<2^(53 : ℤ) := by
    have hlt' : mantissa m<2^53 := by omega
    exact_mod_cast hlt'
  have hbase:=two_zpow_pos (exponent m)
  have hle : exponent m+52≤Int.log 2 (magValue m) := by
    rw [← Int.zpow_le_iff_le_log (by norm_num) (magValue_pos m h0),Nat.cast_ofNat,
      zpow_add₀ two_ne_zero,mul_comm]
    exact mul_le_mul_of_nonneg_right hlow hbase.le
  have hgt : Int.log 2 (magValue m)<exponent m+53 := by
    rw [← Int.lt_zpow_iff_log_lt (by norm_num) (magValue_pos m h0),Nat.cast_ofNat,
      zpow_add₀ two_ne_zero,mul_comm]
    exact mul_lt_mul_of_pos_right hhigh hbase
  omega

theorem log_magValue_le (h : m≠0) : Int.log 2 (magValue m)≤exponent m+52 := by
  by_cases he : m / 2^52=0
  · have hlog:=log_magValue_subnormal m h he
    have hexp:=exponent_subnormal m he
    omega
  · exact (log_magValue_normal m he).le

theorem exponent_bounds (h : m < infMag) : -1074≤exponent m ∧ exponent m≤971 := by
  unfold infMag at h
  unfold exponent
  omega

theorem le_log_magValue (h : m≠0) (hm : m < infMag) : -1074≤Int.log 2 (magValue m) := by
  have hmant : 1 ≤ mantissa m := by
    unfold mantissa
    split <;> omega
  rw [← Int.zpow_le_iff_le_log (by norm_num) (magValue_pos m h),Nat.cast_ofNat]
  calc (2 : ℚ)^(-1074 : ℤ)≤2^exponent m :=
        zpow_le_zpow_right₀ (by norm_num) (exponent_bounds m hm).1
    _ ≤ mantissa m*2^exponent m :=
        le_mul_of_one_le_left (two_zpow_pos _).le (by exact_mod_cast hmant)

theorem nearestMag_magValue : nearestMag (magValue m)=m := by
  by_cases h0 : m=0
  · subst h0
    simp [nearestMag,magValue,mantissa]
  have hpos:=magValue_pos m h0
  have hround : roundHalfEven (magValue m / 2^exponent m)=mantissa m := by
    rw [magValue,mul_div_cancel_right₀ _ (two_zpow_pos _).ne',roundHalfEven_natCast]
  rw [nearestMag,if_neg (not_le.mpr hpos)]
  dsimp only
  by_cases he : m / 2^52=0
  · have hexp:=exponent_subnormal m he
    have hsub : (-1022 : ℤ)-52=exponent m := by omega
    rw [max_eq_right (log_magValue_subnormal m h0 he).le,hsub,hround,mantissa,if_pos he]
    omega
  · have hexp:=exponent_normal m he
    rw [log_magValue_normal m he,max_eq_left (by omega),add_sub_cancel_right,hround,mantissa,
      if_neg he]
    push_cast
    omega

def key (x : Float64) : Int := if x.negative then -(x.mag : Int) else x.mag
def lt (x y : Float64) : Bool := !x.isNaN&&!y.isNaN&&x.key<y.key
def le (x y : Float64) : Bool := !x.isNaN&&!y.isNaN&&x.key≤y.key
def ofInt (n : Int) : Float64 := ofMag (n<0) (nearestMag n.natAbs)

/-- The value of the binary32 magnitude `m`, which has 23 bits of mantissa. -/
def singleValue (m : Nat) : ℚ :=
  (if m / 2^23=0 then m % 2^23 else 2^23+m % 2^23 : Nat) *
    2^((max (m / 2^23) 1 : Nat)-150 : Int)

/-- The conversion of a `float32`; a NaN becomes quiet and keeps its payload. -/
def ofFloat32 (x : Float32) : Float64 :=
  let m:=x.bits.toNat % 2^31
  if m<0xff*2^23 then ofMag x.bits.msb (nearestMag (singleValue m))
  else if m=0xff*2^23 then inf x.bits.msb
  else ofMag x.bits.msb (infMag+(2^51 ||| m % 2^23*2^29))

theorem isNaN_of_isFinite (h : x.isFinite) : x.isNaN=false := by
  rw [Bool.eq_false_iff]
  intro hn
  simp only [isNaN,Bool.and_eq_true,beq_iff_eq] at hn
  have hexp:=congrArg BitVec.toNat hn.1
  simp only [BitVec.extractLsb'_toNat,BitVec.toNat_ofNat,Nat.shiftRight_eq_div_pow] at hexp
  have hlt : x.bits.toNat % 2^63<0x7ff*2^52 := of_decide_eq_true h
  omega

theorem ofMag_mag : ofMag x.negative x.mag=x := by
  obtain ⟨bits⟩ := x
  have hlt:=bits.isLt
  rw [ofMag,Float64.mk.injEq]
  apply BitVec.eq_of_toNat_eq
  simp only [negative,mag,BitVec.msb_eq_decide,BitVec.toNat_ofNat,decide_eq_true_eq]
  split <;> omega

end OpsAgent.Lib.GoValue.Float64
