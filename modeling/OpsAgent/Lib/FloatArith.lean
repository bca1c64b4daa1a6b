import OpsAgent.Lib.Binary64

/-!
# The arithmetic of `float64`

The result of an operation on finite numbers is the exact result rounded to the nearest
number. Which NaN an operation gives is not kept apart: it is always the same one.
-/

namespace OpsAgent.Lib.GoValue.Float64

def value (x : Float64) : ℚ := if x.negative then -magValue x.mag else magValue x.mag

/-- The number nearest to `q`; `neg` is the sign of a zero. -/
def ofRat (neg : Bool) (q : ℚ) : Float64 :=
  ofMag (if q=0 then neg else q<0) (min infMag (nearestMag |q|))
def neg (x : Float64) : Float64 := ofMag (!x.negative) x.mag

def add (x y : Float64) : Float64 :=
  if x.isNaN||y.isNaN then nan
  else if x.isFinite&&y.isFinite then ofRat (x.negative&&y.negative) (x.value+y.value)
  else if x.isFinite then y
  else if y.isFinite||x.negative == y.negative then x
  else nan

def sub (x y : Float64) : Float64 := add x (neg y)

def mul (x y : Float64) : Float64 :=
  let negative:=x.negative != y.negative
  if x.isNaN||y.isNaN then nan
  else if x.isFinite&&y.isFinite then ofRat negative (x.value*y.value)
  else if x.mag=0||y.mag=0 then nan
  else inf negative

def div (x y : Float64) : Float64 :=
  let negative:=x.negative != y.negative
  if x.isNaN||y.isNaN then nan
  else if x.isFinite then
    if !y.isFinite then ofMag negative 0
    else if y.mag=0 then if x.mag=0 then nan else inf negative
    else ofRat negative (x.value / y.value)
  else if y.isFinite then inf negative
  else nan

/-- The conversion to `int64`, which drops the fraction. What it gives for a number that does
not fit is left to the implementation: `unfit`. -/
def toInt64 (unfit : Float64 → Int64) (x : Float64) : Int64 :=
  let n : Int := if x.negative then -⌊magValue x.mag⌋ else ⌊magValue x.mag⌋
  if x.isFinite ∧ -2^63≤n ∧ n<2^63 then Int64.ofInt n else unfit x

theorem value_eq_zero_iff (x : Float64) : x.value=0 ↔ x.mag=0 := by
  constructor
  · intro h
    by_contra hm
    have hpos:=magValue_pos x.mag hm
    unfold value at h
    split at h <;> linarith
  · intro h
    simp [value,h,magValue,mantissa]

theorem abs_value (x : Float64) : |x.value| = magValue x.mag := by
  have hnonneg : 0 ≤ magValue x.mag := by
    by_cases hm : x.mag=0
    · simp [hm,magValue,mantissa]
    · exact (magValue_pos x.mag hm).le
  unfold value
  split
  · rw [abs_neg,abs_of_nonneg hnonneg]
  · exact abs_of_nonneg hnonneg

theorem value_neg_iff {x : Float64} (h : x.mag≠0) : x.value<0 ↔ x.negative := by
  have hpos:=magValue_pos x.mag h
  unfold value
  split
  next hn => exact ⟨fun _ => hn,fun _ => by linarith⟩
  next hn => exact ⟨fun hlt => absurd hlt (by linarith),fun hn' => absurd hn' hn⟩

theorem ofRat_value {x : Float64} (hx : x.isFinite) (h : x.mag≠0) (neg : Bool) :
    ofRat neg x.value=x := by
  have hzero : ¬ x.value=0 := fun hz => h ((value_eq_zero_iff x).mp hz)
  have hsign : decide (x.value<0)=x.negative := by
    rw [Bool.eq_iff_iff,decide_eq_true_iff,value_neg_iff h]
  have hmag : min infMag x.mag=x.mag := min_eq_right (of_decide_eq_true hx).le
  rw [ofRat,if_neg hzero,hsign,abs_value,nearestMag_magValue,hmag,ofMag_mag]

theorem sub_zero {x y : Float64} (hx : x.isFinite) (h : x.mag≠0) (hy : y.bits=0) : sub x y=x := by
  obtain rfl : y=⟨0⟩ := congrArg Float64.mk hy
  have hneg : neg ⟨0⟩=⟨0x8000000000000000#64⟩ := rfl
  have hvalue : value ⟨0x8000000000000000#64⟩=0 := (value_eq_zero_iff _).mpr rfl
  have hfinite : isFinite ⟨0x8000000000000000#64⟩ := rfl
  rw [sub,hneg,add,isNaN_of_isFinite x hx,isNaN_of_isFinite _ hfinite,hx,hfinite,hvalue,add_zero]
  exact ofRat_value hx h _

end OpsAgent.Lib.GoValue.Float64
