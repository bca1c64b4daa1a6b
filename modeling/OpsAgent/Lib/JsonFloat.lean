import Mathlib.Data.List.TakeWhile
import OpsAgent.Lib.FloatExact
import OpsAgent.Lib.FloatText
import OpsAgent.Lib.JsonNumber

/-!
# The literals of `float64` numbers in JSON texts

`encoding/json` writes the shortest decimal, with an exponent if the number is below `1e-6` or from
`1e21` on.
-/

namespace OpsAgent.Lib.JsonFloat
open Lib.FloatText List Json
open Lib.GoValue
open Lib.GoValue.Float64 (nearestMag magValue ofMag infMag)
open Lib.Json (isDigit takeNumber takeInt takeFrac takeExp takeDigits takeMinus)

def decimalOf (m : Nat) : Decimal := if m=0 then .ofScaled 0 0 else shortest m
def exponentPart (e : Int) : List Char :=
  'e' :: (if e<0 then '-' else '+')::Nat.toDigits 10 e.natAbs
def fmtExponent (d : Decimal) : List Char :=
  plainText (d.digits.take 1) (d.digits.drop 1)++exponentPart (d.point-1)
def needsExponent (m : Nat) : Bool :=
  m != 0&&(decide (m<nearestMag (1 / 10^6))||decide (nearestMag (10^21) ≤ m))
def floatText (x : Float64) : List Char :=
  signText x.negative ++
    (if needsExponent x.mag then fmtExponent (decimalOf x.mag) else fmtF (decimalOf x.mag))
def Leading (ds : List Nat) : Prop := ds=[0] ∨ ∃ d rest, ds=d::rest ∧ d≠0

variable {ds : List Nat} {s : List Char} {q : ℚ} {neg : Bool}

theorem isDigit_digitText (h : ∀ d∈ds, d<10) : ∀ c∈digitText ds, isDigit c := by
  intro c hc
  obtain ⟨d,hd,rfl⟩ := mem_map.mp hc
  have hall : ∀ d<10, isDigit (Nat.digitChar d) := by decide
  exact hall d (h d hd)

theorem takeInt_digitText (hlead : Leading ds) (h : ∀ d∈ds, d<10) :
    takeInt (digitText ds)=some (digitText ds,[]) := by
  obtain rfl | ⟨d,rest,rfl,hd⟩ := hlead
  · rfl
  · have hne : Nat.digitChar d ≠ '0' := by
      have hall : ∀ d<10, d≠0 → Nat.digitChar d ≠ '0' := by decide
      exact hall d (h d mem_cons_self) hd
    have hdigits:=takeDigits_self (cons_ne_nil _ _) (isDigit_digitText h)
    change takeInt (Nat.digitChar d::digitText rest)=some (digitText (d::rest),[])
    rw [takeInt,if_neg hne]
    exact hdigits

theorem takeFrac_digitText (h : ∀ d∈ds, d<10) : takeFrac (if ds=[] then [] else '.' :: digitText ds) =
      some (if ds=[] then [] else '.' :: digitText ds,[]) := by
  by_cases hnil : ds=[]
  · rw [if_pos hnil]
    rfl
  · have hne : digitText ds≠[] := by simpa [digitText] using hnil
    rw [if_neg hnil,takeFrac,if_pos rfl,takeDigits_self hne (isDigit_digitText h),Option.map_some]

theorem takeExp_exponentPart (e : Int) : takeExp (exponentPart e)=some (exponentPart e,[]) := by
  have hall : ∀ c∈Nat.toDigits 10 e.natAbs, isDigit c := by
    intro c hc
    rw [isDigit_eq]
    exact Nat.isDigit_of_mem_toDigits (by decide) (by decide) hc
  have hsign : ((if e<0 then '-' else '+') = '+' ∨ (if e<0 then '-' else '+') = '-') := by
    split
    · exact .inr rfl
    · exact .inl rfl
  rw [exponentPart,takeExp,if_pos (.inl rfl),Json.takeSign,if_pos hsign,
    takeDigits_self Nat.toDigits_ne_nil hall,Option.map_some]
  rfl

theorem takeNumber_plainText (neg : Bool) {whole frac : List Nat} (hlead : Leading whole)
    (hw : ∀ d∈whole, d<10) (hf : ∀ d∈frac, d<10) (hs : takeExp s=some (s,[])) :
    takeNumber (signText neg++(plainText whole frac++s)) =
      some (signText neg++(plainText whole frac++s),[]) := by
  have hminus : (takeMinus (signText neg)).1=signText neg := by cases neg <;> rfl
  have hparts:=takeNumber_parts (signText neg) (takeInt_digitText hlead hw)
    (takeFrac_digitText hf) hs (t := []) fun c hc => by cases hc
  rw [hminus,append_nil] at hparts
  rw [plainText]
  simpa only [append_assoc] using hparts

variable {n m : Nat} {x : Float64} {k : JsonNumber}

theorem digits_ofScaled (h : n≠0) (k : Int) : ∃ a rest, (Decimal.ofScaled n k).digits=a::rest ∧ a≠0 := by
  have hlast:=Nat.getLast_digit_ne_zero 10 h
  have hne : (Nat.digits 10 n).dropWhile (· == 0)≠[] := by
    intro hnil
    have hall:=dropWhile_eq_nil_iff.mp hnil _
      (getLast_mem (Nat.digits_ne_nil_iff_ne_zero.mpr h))
    exact hlast (by simpa using hall)
  rw [← (dropWhile_suffix (· == 0)).getLast hne] at hlast
  refine ⟨_,((Nat.digits 10 n).dropWhile (· == 0)).dropLast.reverse,?_,hlast⟩
  have hsplit:=congrArg reverse (dropLast_append_getLast hne)
  rw [reverse_append,reverse_singleton,singleton_append] at hsplit
  exact hsplit.symm

theorem decimalOf_scaled (h0 : m≠0) (hm : m < infMag) :
    ∃ n a : Nat, a≠0 ∧ decimalOf m=.ofScaled a (Int.log 10 (magValue m)-n) ∧
      nearestMag (a*10^(Int.log 10 (magValue m)-n))=m ∧ ∀ i<n, candidate (magValue m) m (i+1)=none := by
  obtain ⟨n,-,hcand,hfirst⟩ := shortest_candidate m h0 hm
  have hvalue:=candidate_value hcand
  have hfound:=hcand
  simp only [candidate,Option.map_eq_some_iff] at hfound
  obtain ⟨a,-,hscaled⟩ := hfound
  have hk : Int.log 10 (magValue m)+1-((n+1 : ℕ) : ℤ)=Int.log 10 (magValue m)-n := by omega
  rw [hk] at hscaled
  rw [← hscaled,Decimal.ofScaled_value] at hvalue
  have ha : a≠0 := by
    rintro rfl
    rw [Nat.cast_zero,zero_mul] at hvalue
    exact h0 hvalue.symm
  exact ⟨n,a,ha,(if_neg h0).trans hscaled.symm,hvalue,hfirst⟩

theorem leading_take {rest more : List Nat} {a : Nat} (h : ds=a::rest) (ha : a≠0) (hn : n≠0) :
    Leading (ds.take n++more) := by
  obtain ⟨n,rfl⟩ := Nat.exists_eq_succ_of_ne_zero hn
  exact .inr ⟨a,rest.take n++more,by rw [h,take_succ_cons,cons_append],ha⟩

section
variable {d : Decimal} {a : Nat} {rest : List Nat} (hd : d.digits=a::rest) (ha : a≠0)
include hd ha

theorem takeNumber_fmtF (neg : Bool) :
    takeNumber (signText neg++fmtF d)=some (signText neg++fmtF d,[]) := by
  have htake : ∀ a∈d.digits.take d.point.toNat, a<10 :=
    fun a ha => d.digits_lt a (mem_of_mem_take ha)
  have hdrop : ∀ a∈d.digits.drop d.point.toNat, a<10 :=
    fun a ha => d.digits_lt a (mem_of_mem_drop ha)
  have hfrac : ∀ a∈replicate (-d.point).toNat 0++d.digits.drop d.point.toNat, a<10 :=
    fun a ha => (mem_append.mp ha).elim (zeros_lt _ a) (hdrop a)
  have hplain : ∀ whole, Leading whole → (∀ a∈whole, a<10) →
      takeNumber (signText neg++plainText whole
        (replicate (-d.point).toNat 0++d.digits.drop d.point.toNat))=some (signText neg ++
        plainText whole (replicate (-d.point).toNat 0++d.digits.drop d.point.toNat),[]) := by
    intro whole hlead hw
    have hnumber:=takeNumber_plainText neg hlead hw hfrac (s := []) rfl
    rwa [append_nil] at hnumber
  rw [fmtF]
  split
  next hpos =>
    refine hplain _ (leading_take hd ha (by omega)) fun a ha => ?_
    exact (mem_append.mp ha).elim (htake a) (zeros_lt _ a)
  next => exact hplain [0] (.inl rfl) (by simp)

theorem takeNumber_fmtExponent (neg : Bool) :
    takeNumber (signText neg++fmtExponent d)=some (signText neg++fmtExponent d,[]) := by
  have hlead : Leading (d.digits.take 1++[]) := leading_take hd ha one_ne_zero
  rw [append_nil] at hlead
  exact takeNumber_plainText neg hlead (fun a ha => d.digits_lt a (mem_of_mem_take ha))
    (fun a ha => d.digits_lt a (mem_of_mem_drop ha)) (takeExp_exponentPart _)

end

theorem takeNumber_floatText (hx : x.isFinite) : takeNumber (floatText x)=some (floatText x,[]) := by
  rw [floatText]
  by_cases h0 : x.mag=0
  · rw [h0]
    cases x.negative <;> rfl
  · obtain ⟨n,a,ha,hscaled,-,-⟩ := decimalOf_scaled h0 (of_decide_eq_true hx)
    obtain ⟨d,rest,hd,hne⟩ := digits_ofScaled ha (Int.log 10 (magValue x.mag)-n)
    rw [← hscaled] at hd
    split
    next => exact takeNumber_fmtExponent hd hne _
    next => exact takeNumber_fmtF hd hne _

/-- The encoder refuses the infinities and the NaN. -/
def encodeFloat (x : Float64) : Option JsonNumber :=
  if hx : x.isFinite=true then some ⟨floatText x,takeNumber_floatText hx⟩ else none

theorem toDigits_eq_digitText (h : n≠0) : Nat.toDigits 10 n=digitText (Nat.digits 10 n).reverse := by
  induction n using Nat.strongRecOn with
  | _ n ih =>
    rw [Nat.toDigits_eq_if (by decide),Nat.digits_def' (by decide) (Nat.pos_of_ne_zero h),
      reverse_cons,digitText,map_append,← digitText]
    split
    next hlt =>
      rw [Nat.div_eq_of_lt hlt,Nat.mod_eq_of_lt hlt]
      rfl
    next hge =>
      rw [ih (n / 10) (by omega) (by omega)]
      rfl

theorem tail_exponentPart {e : Int} (h : e.natAbs<100000) : Tail (exponentPart e) e := by
  refine ⟨fun st => rfl,?_,fun c hc => ?_⟩
  · rw [exponentPart]
    by_cases h0 : e.natAbs=0
    · rw [Int.natAbs_eq_zero.mp h0]
      rfl
    · rw [toDigits_eq_digitText h0]
      refine readExponent_digits ?_ (fun d hd => ?_) ?_ h
      · rw [ne_eq,reverse_eq_nil_iff,Nat.digits_eq_nil_iff_eq_zero]
        exact h0
      · exact Nat.digits_lt_base (by norm_num) (mem_reverse.mp hd)
      · rw [readDigits_eq,reverse_reverse,Nat.ofDigits_digits]
        omega
  · cases hc
    decide

theorem parseFloat_floatText (hx : x.isFinite) : parseFloat (floatText x)=.ok x := by
  rw [floatText,decimalOf]
  by_cases h0 : x.mag=0
  · have hplain : needsExponent x.mag=false := by
      rw [h0]
      rfl
    rw [hplain,if_neg Bool.false_ne_true,if_pos h0,parseFloat_fmtF]
    refine nearest_of_mag hx ?_
    rw [h0,Decimal.ofScaled_value]
    simp [nearestMag]
  · obtain ⟨hval,hne,hexp⟩ := shortest_spec h0 (of_decide_eq_true hx)
    rw [if_neg h0]
    split
    · exact (parseFloat_scientific _ hne (tail_exponentPart hexp)).trans (nearest_of_mag hx hval)
    · exact (parseFloat_fmtF _ _).trans (nearest_of_mag hx hval)

theorem encodeFloat_eq_some (h : encodeFloat x=some k) : x.isFinite ∧ parseFloat k.text=.ok x := by
  rw [encodeFloat] at h
  split at h
  next hx =>
    cases h
    exact ⟨hx,parseFloat_floatText hx⟩
  next => cases h

theorem fmtF_ofScaled (h : n≠0) : fmtF (.ofScaled n 0)=Nat.toDigits 10 n := by
  have hsplit:=takeWhile_append_dropWhile (p := (· == 0)) (l := Nat.digits 10 n)
  have hlen:=congrArg length hsplit
  rw [length_append] at hlen
  have hne : Nat.digits 10 n≠[] := Nat.digits_ne_nil_iff_ne_zero.mpr h
  have hpos : 0<(Nat.digits 10 n).length := length_pos_iff.mpr hne
  have hpoint : (Decimal.ofScaled n 0).point=((Nat.digits 10 n).length : ℤ) := zero_add _
  have hdigits : (Decimal.ofScaled n 0).digits=((Nat.digits 10 n).dropWhile (· == 0)).reverse := rfl
  have hwhole : (Decimal.ofScaled n 0).digits.take (Nat.digits 10 n).length ++
      replicate ((Nat.digits 10 n).length-(Decimal.ofScaled n 0).digits.length) 0 =
        (Nat.digits 10 n).reverse := by
    rw [hdigits,take_of_length_le (by rw [length_reverse]; omega),length_reverse,
      show (Nat.digits 10 n).length-((Nat.digits 10 n).dropWhile (· == 0)).length =
        ((Nat.digits 10 n).takeWhile (· == 0)).length by omega,
      ← reverse_replicate,← takeWhile_zeros,← reverse_append,hsplit]
  have hfrac : replicate (-((Nat.digits 10 n).length : ℤ)).toNat 0 ++
      (Decimal.ofScaled n 0).digits.drop (Nat.digits 10 n).length=[] := by
    rw [hdigits,drop_of_length_le (by rw [length_reverse]; omega)]
    simp
  rw [fmtF,hpoint,Int.toNat_natCast,if_pos (by omega),hwhole,hfrac,plainText,if_pos rfl,
    append_nil,toDigits_eq_digitText h]

theorem ofScaled_shift {a : Nat} (ha : a≠0) (j : Nat) : Decimal.ofScaled a j=.ofScaled (a*10^j) 0 := by
  have hdigits : Nat.digits 10 (a*10^j)=replicate j 0++Nat.digits 10 a := by
    rw [Nat.mul_comm]
    exact Nat.digits_base_pow_mul (by decide) (Nat.pos_of_ne_zero ha)
  have hdrop : (Nat.digits 10 (a*10^j)).dropWhile (· == 0) =
      (Nat.digits 10 a).dropWhile (· == 0) := by
    rw [hdigits,dropWhile_append_of_pos]
    intro d hd
    simp [eq_of_mem_replicate hd]
  have hlen:=congrArg length hdigits
  rw [length_append,length_replicate] at hlen
  simp only [Decimal.ofScaled,Decimal.mk.injEq,hdrop,true_and,hlen]
  push_cast
  ring

theorem floor_le_roundHalfEven (q : ℚ) : ⌊q⌋ ≤ Float64.roundHalfEven q := by
  unfold Float64.roundHalfEven
  split
  · exact le_rfl
  · split
    · omega
    · split
      · exact le_rfl
      · omega

def mag53 : Nat := 1076*2^52

theorem magValue_mag53 : magValue mag53=2^53 := by
  have hmant : Float64.mantissa mag53=2^52 := by decide
  have hexp : Float64.exponent mag53=1 := by decide
  rw [magValue,hmant,hexp]
  norm_num

theorem mag53_le_nearestMag (h : 2^53≤q) : mag53≤nearestMag q := by
  have hpos : 0<q := lt_of_lt_of_le (by norm_num) h
  have hlog : 53≤Int.log 2 q := (Int.zpow_le_iff_le_log (by norm_num) hpos).mp (by exact_mod_cast h)
  have hscaled : (2^52 : ℚ)≤q / 2^(Int.log 2 q-52) := by
    rw [le_div_iff₀ (Float64.two_zpow_pos _),← zpow_natCast,← zpow_add₀ two_ne_zero,
      show ((52 : ℕ) : ℤ)+(Int.log 2 q-52)=Int.log 2 q by omega]
    exact_mod_cast Int.zpow_log_le_self (by norm_num) hpos
  have hround : (2^52 : ℤ)≤Float64.roundHalfEven (q / 2^(Int.log 2 q-52)) :=
    le_trans (Int.le_floor.mpr (by exact_mod_cast hscaled)) (floor_le_roundHalfEven _)
  rw [nearestMag,if_neg (not_le.mpr hpos),max_eq_left (by omega),mag53]
  change _≤((Int.log 2 q+1022)*2^52 +
    Float64.roundHalfEven (q / 2^(Int.log 2 q-52))).toNat
  omega

theorem log_ten_natCast (h : n≠0) : ∃ i : Nat, Int.log 10 (n : ℚ)=i := by
  have hle : (0 : ℤ)≤Int.log 10 (n : ℚ) := by
    rw [← Int.zpow_le_iff_le_log (by norm_num) (by exact_mod_cast Nat.pos_of_ne_zero h),zpow_zero]
    exact_mod_cast Nat.one_le_iff_ne_zero.mpr h
  exact Int.eq_ofNat_of_zero_le hle

theorem decimalOf_natCast (hm : m < infMag) (hval : magValue m=n) (h0 : n≠0) (hn : n<2^53) :
    decimalOf m=.ofScaled n 0 := by
  have hm0 : m≠0 := by
    rintro rfl
    rw [magValue,Float64.mantissa] at hval
    exact h0 (by exact_mod_cast (by simpa using hval.symm : (n : ℚ)=0))
  obtain ⟨digits,a,ha,hscaled,hnear,hfirst⟩ := decimalOf_scaled hm0 hm
  obtain ⟨i,hi⟩ := log_ten_natCast h0
  rw [hval,hi] at hscaled hnear
  have hexact : (candidate (magValue m) m (i+1)).isSome := by
    refine candidate_of_exact (a := n) (Float64.nearestMag_magValue m) ?_
    rw [hval,hi,show (i : ℤ)+1-((i+1 : ℕ) : ℤ)=0 by push_cast; ring,zpow_zero,mul_one]
  have hle : digits ≤ i := by
    by_contra hlt
    rw [hfirst i (by omega)] at hexact
    cases hexact
  obtain ⟨j,hj⟩ : ∃ j : ℕ, (i : ℤ)-digits=j := ⟨i-digits,by omega⟩
  rw [hj,ofScaled_shift ha] at hscaled
  rw [hj,zpow_natCast] at hnear
  have hcast : (a : ℚ)*10^j=((a*10^j : ℕ) : ℚ) := by push_cast; rfl
  rw [hcast] at hnear
  have hpow : a*10^j≠0 := Nat.mul_ne_zero ha (pow_ne_zero j (by norm_num))
  have hsmall : a*10^j<2^53 := by
    by_contra hge
    have hbig : mag53 ≤ m := hnear ▸ mag53_le_nearestMag (by exact_mod_cast not_lt.mp hge)
    have hmono:=Float64.magValue_strictMono.monotone hbig
    rw [magValue_mag53,hval] at hmono
    exact absurd hn (not_lt.mpr (by exact_mod_cast hmono))
  obtain ⟨m',-,hm'⟩ := Float64.exists_mag_of_lt hpow hsmall
  rw [← hm',Float64.nearestMag_magValue] at hnear
  rw [hnear,hval] at hm'
  rw [hscaled,← (by exact_mod_cast hm' : n=a*10^j)]

theorem fmtF_decimalOf (hm : m < infMag) (hval : magValue m=n) (hn : n≤2^53) :
    fmtF (decimalOf m)=Nat.toDigits 10 n := by
  have hinj:=Float64.magValue_strictMono.injective
  by_cases h0 : n=0
  · have hm0 : m=0 := hinj (by rw [hval,h0,magValue,Float64.mantissa]; simp)
    rw [hm0,h0]
    rfl
  · by_cases htop : n=2^53
    · have hm53 : m=mag53 := hinj (by rw [hval,htop,magValue_mag53]; norm_num)
      rw [hm53,htop]
      decide +kernel
    · rw [decimalOf_natCast hm hval h0 (by omega),fmtF_ofScaled h0]

theorem needsExponent_natCast (hval : magValue m=n) (hn : n≤2^53) : needsExponent m=false := by
  have hmono : ∀ i j, magValue i ≤ magValue j ↔ i≤j := fun i j =>
    Float64.magValue_strictMono.le_iff_le
  by_cases h0 : m=0
  · rw [needsExponent,h0]
    rfl
  · have hone : 1023*2^52 ≤ m := by
      have hmant : Float64.mantissa (1023*2^52)=2^52 := by decide
      have hexp : Float64.exponent (1023*2^52) = -52 := by decide
      have hpos:=Float64.magValue_pos m h0
      rw [← hmono,magValue,hmant,hexp,hval]
      rw [hval] at hpos
      have hn1 : (1 : ℚ)≤n := by exact_mod_cast (by exact_mod_cast hpos : 0<n)
      norm_num
      exact_mod_cast hn1
    have htop : m ≤ mag53 := by
      rw [← hmono,hval,magValue_mag53]
      exact_mod_cast hn
    have hlow : nearestMag (1 / 10^6)≤1023*2^52 := by decide +kernel
    have hhigh : mag53<nearestMag (10^21) := by decide +kernel
    rw [needsExponent,decide_eq_false (by omega),decide_eq_false (by omega),Bool.or_self,
      Bool.and_false]

theorem floatText_of_denotes {n : ℤ} (h : x.Denotes n) (hn : n.natAbs≤2^53) :
    floatText x=signText x.negative++Nat.toDigits 10 n.natAbs := by
  have hval : magValue x.mag=(n.natAbs : ℚ) := by
    rw [← Float64.abs_value,h.value,Float64.abs_intCast]
  rw [floatText,needsExponent_natCast hval hn,if_neg Bool.false_ne_true,
    fmtF_decimalOf (of_decide_eq_true h.finite) hval hn]

theorem toInt?_signText (h : k.text=signText neg++Nat.toDigits 10 n) :
    k.toInt?=some (if neg then -(n : ℤ) else n) := by
  have hall : (Nat.toDigits 10 n).all Char.isDigit :=
    all_eq_true.mpr fun c hc => Nat.isDigit_of_mem_toDigits (by decide) (by decide) hc
  have hminus : takeMinus (signText neg++Nat.toDigits 10 n)=(signText neg,Nat.toDigits 10 n) := by
    cases neg with
    | true => rfl
    | false =>
      have hpos:=takeMinus_intText n
      rw [Json.intText,if_neg (by omega),Int.natAbs_natCast] at hpos
      exact hpos
  simp only [JsonNumber.toInt?,h,hminus,hall,if_true,Nat.ofDigitChars_ten_toDigits]
  cases neg <;> rfl

theorem encodeFloat_of_denotes {n : ℤ} (h : x.Denotes n) (hn : n.natAbs≤2^53) :
    ∃ k, encodeFloat x=some k ∧ k.toInt?=some n := by
  refine ⟨⟨floatText x,takeNumber_floatText h.finite⟩,dif_pos h.finite,?_⟩
  rw [toInt?_signText (floatText_of_denotes h hn)]
  have hval : magValue x.mag=(n.natAbs : ℚ) := by
    rw [← Float64.abs_value,h.value,Float64.abs_intCast]
  have hx:=h.value
  rw [Float64.value,hval] at hx
  congr 1
  cases hneg : x.negative with
  | true =>
    rw [hneg,if_pos rfl] at hx
    rw [if_pos rfl]
    exact_mod_cast hx
  | false =>
    rw [hneg,if_neg Bool.false_ne_true] at hx
    rw [if_neg Bool.false_ne_true]
    exact Int.cast_injective (α := ℚ) (by rw [Int.cast_natCast,hx])

def Denotes (k : JsonNumber) (q : ℚ) : Prop :=
  ∃ neg a, readFloat k.text=some (neg,a) ∧ (if neg then -a else a)=q

theorem exists_digitChar {c : Char} (h : isDigit c) : ∃ d<10, c=Nat.digitChar d := by
  rw [isDigit,Bool.and_eq_true,decide_eq_true_eq,decide_eq_true_eq] at h
  have hlow : 48≤c.toNat := h.1
  have hhigh : c.toNat≤57 := h.2
  have hall : ∀ d<10, Nat.digitChar d=Char.ofNat (48+d) := by decide
  refine ⟨c.toNat-48,by omega,?_⟩
  rw [hall _ (by omega),Nat.add_sub_cancel' hlow,Char.ofNat_toNat]

theorem takeMinus_sign (s : List Char) : ∃ neg, (takeMinus s).1=signText neg := by
  cases s with
  | nil => exact ⟨false,rfl⟩
  | cons c s =>
    rw [takeMinus]
    split
    next hc => exact ⟨true,by rw [hc]; rfl⟩
    next => exact ⟨false,rfl⟩

theorem text_cases (k : JsonNumber) : ∃ neg d s, d<10 ∧ k.text=signText neg++Nat.digitChar d::s := by
  obtain ⟨i,f,e,s₁,s₂,htext,hi,-,-⟩ := takeNumber_cases k.valid
  obtain ⟨c,i',rfl,hc⟩ := takeInt_head hi
  obtain ⟨neg,hneg⟩ := takeMinus_sign k.text
  obtain ⟨d,hd,rfl⟩ := exists_digitChar hc
  refine ⟨neg,d,i' ++ f++e,hd,?_⟩
  rw [htext,hneg,append_assoc,append_assoc,cons_append,append_assoc]

theorem special_literal (k : JsonNumber) : special k.text=none := by
  obtain ⟨neg,d,s,hd,htext⟩ := text_cases k
  rw [htext,special_text neg d hd]

theorem readFloat_nonneg {a : ℚ} (h : readFloat s=some (neg,a)) : 0≤a := by
  simp only [readFloat] at h
  split at h
  · split at h
    · split at h
      · cases h
      · cases h
        refine mul_nonneg (mul_nonneg (Nat.cast_nonneg _) (zpow_nonneg (Nat.cast_nonneg _) _)) ?_
        exact zpow_nonneg (by split <;> norm_num) _
    · cases h
  · cases h

theorem isFinite_of_nearest (h : nearest neg q=.ok x) : x.isFinite := by
  rw [nearest] at h
  split at h
  next hlt =>
    cases h
    exact decide_eq_true (by rwa [Float64.mag_ofMag hlt.le])
  next => cases h

theorem isFinite_of_parseFloat (h : parseFloat k.text=.ok x) : x.isFinite := by
  simp only [parseFloat,special_literal] at h
  split at h
  next => exact isFinite_of_nearest h
  next => cases h

theorem parseFloat_of_denotes (h : Denotes k q) (hq : Float64.Fits q) :
    ∃ x, parseFloat k.text=.ok x ∧ x.Denotes q := by
  obtain ⟨neg,a,hread,hsign⟩ := h
  obtain ⟨m,hm,hval⟩ := hq
  have habs : |q| = a := by
    rw [← hsign]
    cases neg with
    | true => rw [if_pos rfl,abs_neg,abs_of_nonneg (readFloat_nonneg hread)]
    | false => rw [if_neg Bool.false_ne_true,abs_of_nonneg (readFloat_nonneg hread)]
  rw [habs] at hval
  have hnear : nearestMag a=m := by rw [← hval,Float64.nearestMag_magValue]
  refine ⟨ofMag neg m,?_,?_,?_⟩
  · rw [parseFloat,special_literal,hread]
    simp only [nearest,hnear,if_pos hm]
  · exact decide_eq_true (by rwa [Float64.mag_ofMag hm.le])
  · rw [Float64.value,Float64.negative_ofMag,Float64.mag_ofMag hm.le,hval,hsign]

theorem exists_digitText (h : ∀ c∈s, isDigit c) : ∃ ds, (∀ d∈ds, d<10) ∧ s=digitText ds := by
  induction s with
  | nil => exact ⟨[],fun _ hd => absurd hd not_mem_nil,rfl⟩
  | cons c s ih =>
    obtain ⟨d,hd,rfl⟩ := exists_digitChar (h c mem_cons_self)
    obtain ⟨ds,hds,rfl⟩ := ih fun c hc => h c (mem_cons_of_mem _ hc)
    exact ⟨d::ds,forall_mem_cons.mpr ⟨hd,hds⟩,rfl⟩

theorem ofDigitChars_digitText (n : Nat) (h : ∀ d∈ds, d<10) :
    Nat.ofDigitChars 10 (digitText ds) n=readDigits n ds := by
  induction ds generalizing n with
  | nil => rfl
  | cons d ds ih =>
    rw [forall_mem_cons] at h
    change Nat.ofDigitChars 10 (Nat.digitChar d::digitText ds) n=readDigits (n*10+d) ds
    rw [Nat.ofDigitChars_cons_digitChar_of_lt_ten h.1,ih _ h.2,Nat.mul_comm]

theorem denotes_of_toInt? {n : ℤ} (h : k.toInt?=some n) : Denotes k n := by
  obtain ⟨i,f,e,s₁,s₂,-,hi,-,-⟩ := takeNumber_cases k.valid
  have hne : (takeMinus k.text).2≠[] := by
    intro hnil
    rw [hnil] at hi
    cases hi
  obtain ⟨neg,hneg⟩ := takeMinus_sign k.text
  have htext:=takeMinus_text k.text
  simp only [JsonNumber.toInt?] at h
  split at h
  next hall =>
    obtain ⟨ds,hds,hdigits⟩ := exists_digitText (s := (takeMinus k.text).2) fun c hc => by
      rw [isDigit_eq]
      exact all_eq_true.mp hall c hc
    have hds0 : ds≠[] := by
      rintro rfl
      exact hne hdigits
    have hread:=readFloat_plainText neg ds [] [] 0 hds (fun _ hd => absurd hd not_mem_nil) hds0
      tail_nil
    rw [plainText,if_pos rfl,append_nil,append_nil,← hdigits,← hneg,htext] at hread
    refine ⟨neg,_,hread,?_⟩
    rw [hdigits,ofDigitChars_digitText 0 hds,hneg] at h
    cases h
    cases neg <;> simp [signText]
  next => cases h

theorem nearestMag_lt_infMag (h : q<2^64) : nearestMag q < infMag := by
  by_cases hq : q≤0
  · rw [nearestMag,if_pos hq]
    decide
  · have hpos : 0<q := not_le.mp hq
    have hlog : Int.log 2 q<64 := (Int.lt_zpow_iff_log_lt (by norm_num) hpos).mp (by exact_mod_cast h)
    have hscaled : ∀ e : ℤ, Int.log 2 q≤e → q / 2^(e-52)<(2^53 : ℤ) := by
      intro e he
      rw [div_lt_iff₀ (Float64.two_zpow_pos _)]
      refine lt_of_lt_of_le (Int.lt_zpow_succ_log_self (by norm_num : 1<2) q) ?_
      have hexp : (((2^53 : ℤ) : ℚ))*2^(e-52)=2^(e+1) := by
        rw [show e+1=53+(e-52) by omega,zpow_add₀ two_ne_zero]
        norm_num
      rw [hexp,Nat.cast_ofNat]
      exact zpow_le_zpow_right₀ (by norm_num) (by omega)
    have hround : ∀ x : ℚ, x<(2^53 : ℤ) → Float64.roundHalfEven x≤2^53 := by
      intro x hx
      have hfloor : ⌊x⌋ < 2^53 := Int.floor_lt.mpr hx
      unfold Float64.roundHalfEven
      split
      · omega
      · split
        · omega
        · split <;> omega
    have hmant:=hround _ (hscaled (max (Int.log 2 q) (-1022)) (le_max_left _ _))
    rw [nearestMag,if_neg hq,infMag]
    dsimp only
    omega

theorem parseFloat_ofInt {n : ℤ} (h : n.natAbs<2^64) :
    parseFloat (JsonNumber.ofInt n).text=.ok (Float64.ofInt n) := by
  by_cases h0 : n=0
  · subst h0
    decide +kernel
  · obtain ⟨neg,a,hread,hsign⟩ := denotes_of_toInt? (JsonNumber.toInt?_ofInt n)
    have ha:=readFloat_nonneg hread
    have hnat : (n.natAbs : ℚ)<2^64 := by exact_mod_cast h
    have habs : a=(n.natAbs : ℚ) := by
      rw [← Float64.abs_intCast,← hsign]
      cases neg with
      | true => rw [if_pos rfl,abs_neg,abs_of_nonneg ha]
      | false => rw [if_neg Bool.false_ne_true,abs_of_nonneg ha]
    have hneg : neg=decide (n<0) := by
      cases neg with
      | true =>
        rw [if_pos rfl] at hsign
        have hle : (n : ℚ)≤0 := by rw [← hsign]; exact neg_nonpos.mpr ha
        have hle' : n≤0 := by exact_mod_cast hle
        exact (decide_eq_true (by omega)).symm
      | false =>
        rw [if_neg Bool.false_ne_true] at hsign
        have hge : (0 : ℚ)≤n := hsign ▸ ha
        have hge' : 0≤n := by exact_mod_cast hge
        exact (decide_eq_false (by omega)).symm
    rw [parseFloat,special_literal,hread]
    dsimp only
    rw [nearest,habs,if_pos (nearestMag_lt_infMag hnat),hneg,Float64.ofInt]

end OpsAgent.Lib.JsonFloat
