import OpsAgent.Collector.Aggregators
import OpsAgent.Lib.FloatExact
import OpsAgent.Lib.FloatText
import OpsAgent.Lib.Interpolation

/-!
# The percentile aggregator (`collector/aggregators/percentile/percentile.go`)

`Push` sorts the values of a field in place. An index outside the slice is a panic: `none`.
-/

namespace OpsAgent.Collector.Percentile
open Lib List Option Bool AList Interpolation
open Lib.GoValue (Float64 Val)
open Lib.FloatText (formatFloat)

def truncate (pv : Float64) : Int := (Float64.toInt64 (fun _ => 0) pv).toInt
def inRange (pv : Float64) : Bool := !(pv.lt (.ofInt 0)||(Float64.ofInt 100).lt pv)
def isWhole (pv : Float64) : Bool := pv.eq (.ofInt (truncate pv))

/- A percentile that `Init` accepts. -/
structure Percent where
  value : Float64
  inRange : inRange value
  isWhole : isWhole value

def defaultPercentiles : List Percent :=
  [⟨.ofInt 50,by decide +kernel,by decide +kernel⟩,
   ⟨.ofInt 95,by decide +kernel,by decide +kernel⟩,
   ⟨.ofInt 99,by decide +kernel,by decide +kernel⟩]

structure Values (K : Type) where
  values : StringMap (List K)

structure PercentileAggregator (K : Type) extends Aggregator (Values K) where
  percentiles : List Percent

section
variable {K : Type} (A : Numbers K)

def new (fields : List String) (percentiles : List Percent) : PercentileAggregator K :=
  ⟨.new fields ⟨∅⟩,percentiles⟩

def Values.of (s : Values K) (fname : String) : List K := (s.values.lookup fname).getD []
def addValue (s : Values K) (fname : String) (v : K) : Values K :=
  ⟨s.values.insert fname (s.of fname++[v])⟩
def add (a : PercentileAggregator K) (m : Metric) : PercentileAggregator K :=
  {a with toAggregator := a.toAggregator.add A addValue m}
def reset (a : PercentileAggregator K) : PercentileAggregator K := new a.fields a.percentiles
def element (sorted : List K) (i : Int) : Option K := if i<0 then none else sorted[i.toNat]?

def percentile (sorted : List K) (p : K) : Option K :=
  if sorted.length=0 then some (A.ofInt 0)
  else if sorted.length=1 then element sorted 0
  else
    let index:=A.mul (A.div p (A.ofInt 100)) (A.ofInt (sorted.length-1))
    let lower:=A.floor index
    let upper:=A.ceil index
    if lower=upper then element sorted lower
    else match element sorted lower, element sorted upper with
      | some lo, some hi => some (A.add lo (A.mul (A.sub hi lo) (A.sub index (A.ofInt lower))))
      | _, _ => none

/-- `fmt.Sprintf("%s_p%d", fname, int(p))` -/
def key (fname : String) (p : Percent) : String := fname++"_p"++toString (truncate p.value)

def pushPercentiles (fname : String) (sorted : List K) :
    List Percent → StringMap K → Option (StringMap K)
  | [], out => some out
  | p::ps, out => match percentile A sorted (A.ofFloat64 p.value) with
    | none => none
    | some v => pushPercentiles fname sorted ps (out.insert (key fname p) v)

def pushFields (percentiles : List Percent) :
    List String → Values K → StringMap K → Option (Values K × StringMap K)
  | [], s, out => some (s,out)
  | fname::fs, s, out =>
    if s.of fname=[] then pushFields percentiles fs s out
    else
      let sorted:=A.sort (s.of fname)
      match pushPercentiles A fname sorted percentiles out with
      | none => none
      | some out => pushFields percentiles fs ⟨s.values.insert fname sorted⟩ out

def push (a : PercentileAggregator K) :
    Option (PercentileAggregator K × List (Aggregate K)) :=
  if a.kept.values.entries.isEmpty then some (a,[])
  else (pushFields A a.percentiles a.fields a.kept ∅).map fun r =>
    ({a with kept := r.1},emit a.name a.tags r.2)

end

namespace Percent

def whole (p : Percent) : Nat := (truncate p.value).toNat

theorem denotes_int (n : ℤ) (h : n.natAbs≤100) : (Float64.ofInt n).Denotes n :=
  Float64.denotes_ofInt (Float64.fits_intCast (by omega))

theorem isFinite (p : Percent) : p.value.isFinite := by
  have hnan : p.value.isNaN=false := by
    have heq:=p.isWhole
    simp only [Percentile.isWhole,Float64.eq,and_eq_true,not_eq_true'] at heq
    exact heq.1.1
  have hrange:=p.inRange
  simp only [Percentile.inRange,not_eq_true',or_eq_false_iff] at hrange
  exact Float64.isFinite_of_between hnan (denotes_int 0 (by decide)).finite
    (denotes_int 100 (by decide)).finite hrange.1 hrange.2

theorem value_bounds (p : Percent) : 0≤p.value.value ∧ p.value.value≤100 := by
  have hrange:=p.inRange
  simp only [Percentile.inRange,not_eq_true',or_eq_false_iff] at hrange
  have hlow:=mt (Float64.lt_iff_value p.isFinite (denotes_int 0 (by decide)).finite).mpr
    (eq_false_iff.mp hrange.1)
  have hhigh:=mt (Float64.lt_iff_value (denotes_int 100 (by decide)).finite p.isFinite).mpr
    (eq_false_iff.mp hrange.2)
  rw [(denotes_int 0 (by decide)).value] at hlow
  rw [(denotes_int 100 (by decide)).value] at hhigh
  push_cast at hlow hhigh
  exact ⟨not_lt.mp hlow,not_lt.mp hhigh⟩

theorem floor_bounds (p : Percent) : 0 ≤ ⌊p.value.value⌋ ∧ ⌊p.value.value⌋ ≤ 100 := by
  obtain ⟨hlow,hhigh⟩ := p.value_bounds
  exact ⟨Int.floor_nonneg.mpr hlow,Int.floor_le_iff.mpr (by push_cast; linarith)⟩

theorem truncate_eq (p : Percent) : truncate p.value = ⌊p.value.value⌋ := by
  have hlow:=p.value_bounds.1
  have hfloor : (if p.value.negative then -⌊Float64.magValue p.value.mag⌋
      else ⌊Float64.magValue p.value.mag⌋ : ℤ) = ⌊p.value.value⌋ := by
    have hmag:=Float64.magValue_nonneg p.value.mag
    unfold Float64.value at hlow ⊢
    split
    next hneg =>
      rw [if_pos hneg] at hlow
      have hzero : Float64.magValue p.value.mag=0 := by linarith
      rw [hzero]
      simp
    next => rfl
  obtain ⟨h0,h100⟩ := p.floor_bounds
  rw [truncate,Float64.toInt64,hfloor,if_pos ⟨p.isFinite,by omega,by omega⟩]
  exact Int64.toInt_ofInt_of_le (by omega) (by omega)

theorem truncate_whole (p : Percent) : truncate p.value=p.whole := by
  have h0 : 0≤truncate p.value := by
    rw [truncate_eq]
    exact p.floor_bounds.1
  rw [whole,Int.toNat_of_nonneg h0]

theorem whole_le (p : Percent) : p.whole≤100 := by
  have h100:=p.floor_bounds.2
  have htrunc:=p.truncate_whole
  rw [truncate_eq] at htrunc
  omega

theorem value_eq (p : Percent) : p.value.value=p.whole := by
  have heq:=Float64.value_eq_of_eq p.isWhole
  have hle:=p.whole_le
  rw [p.truncate_whole,(denotes_int p.whole (by omega)).value] at heq
  exact_mod_cast heq

end Percent

theorem element_of_nonneg {K : Type} (sorted : List K) {i : Int} (h : 0 ≤ i) :
    element sorted i=sorted[i.toNat]? := if_neg (not_lt.mpr h)

def position (n : Nat) (p : ℚ) : ℚ := p / 100*((n : ℚ)-1)

variable {n : Nat} {p : ℚ}

theorem last_nonneg (hn : n≠0) : (0 : ℚ)≤(n : ℚ)-1 := by
  have hone : (1 : ℚ)≤n := by exact_mod_cast Nat.one_le_iff_ne_zero.mpr hn
  linarith

theorem position_bounds (hn : n≠0) (h0 : 0≤p) (h100 : p≤100) :
    0≤position n p ∧ position n p≤(n : ℚ)-1 := by
  have hpos:=last_nonneg hn
  have hle : p / 100≤1 := by linarith
  exact ⟨mul_nonneg (by linarith) hpos,mul_le_of_le_one_left hpos hle⟩

theorem position_mono (hn : n≠0) {q : ℚ} (h : p≤q) : position n p≤position n q := by
  have hpos:=last_nonneg hn
  exact mul_le_mul_of_nonneg_right (by linarith) hpos

theorem percentile_exact {sorted : List ℚ} (hne : sorted≠[]) (h0 : 0≤p) (h100 : p≤100) :
    percentile exact sorted p=Interpolation.valueAt sorted (position sorted.length p) := by
  have hlen : sorted.length≠0 := mt length_eq_zero_iff.mp hne
  obtain ⟨hlow,hhigh⟩ := position_bounds hlen h0 h100
  rw [percentile,if_neg hlen]
  by_cases hone : sorted.length=1
  · obtain ⟨x,rfl⟩ := length_eq_one_iff.mp hone
    have hzero : position [x].length p=(0 : ℕ) := by simp [position]
    rw [if_pos hone,hzero,valueAt_natCast (a := x) rfl]
    rfl
  · rw [if_neg hone]
    have hindex : exact.mul (exact.div p (exact.ofInt 100)) (exact.ofInt (sorted.length-1)) =
        position sorted.length p := by
      simp only [exact,position]
      push_cast
      ring
    simp only [hindex]
    generalize position sorted.length p=index at hlow hhigh
    obtain ⟨a,b,ha,hb,hval⟩ := valueAt_some hlow hhigh hne
    have hfloor : 0 ≤ ⌊index⌋ := Int.floor_nonneg.mpr hlow
    have hceil : 0 ≤ ⌈index⌉ := hfloor.trans (Int.floor_le_ceil index)
    have hlo : element sorted (exact.floor index)=some a := (element_of_nonneg _ hfloor).trans ha
    have hhi : element sorted (exact.ceil index)=some b := (element_of_nonneg _ hceil).trans hb
    rw [hlo,hhi,hval]
    split
    next heq =>
      rw [heq] at hlo
      cases hlo.symm.trans hhi
      simp [Interpolation.line]
    next => rfl

theorem sort_sorted (vals : List ℚ) : (exact.sort vals).Pairwise (· ≤ ·) :=
  pairwise_insertionSort (· ≤ ·) vals

variable {vals : List ℚ}

theorem sort_eq_of_perm {vals' : List ℚ} (h : vals.Perm vals') : exact.sort vals=exact.sort vals' :=
  (((exact.sort_perm vals).trans h).trans (exact.sort_perm vals').symm).eq_of_pairwise'
    (sort_sorted vals) (sort_sorted vals')
theorem sort_length (vals : List ℚ) : (exact.sort vals).length=vals.length :=
  (exact.sort_perm vals).length_eq
theorem sort_ne_nil (h : vals≠[]) : exact.sort vals≠[] := by
  rw [ne_eq,← length_eq_zero_iff,sort_length,length_eq_zero_iff]
  exact h

theorem sort_first (hne : vals≠[]) : (exact.sort vals)[0]?=vals.min? := by
  have hlen : 0<(exact.sort vals).length := by
    rw [sort_length]
    exact length_pos_iff.mpr hne
  have hfirst:=getElem?_eq_getElem hlen
  rw [hfirst,eq_comm,min?_eq_some_iff]
  refine ⟨(exact.sort_perm vals).mem_iff.mp (getElem_mem hlen),fun v hv => ?_⟩
  obtain ⟨i,hi⟩ := mem_iff_getElem?.mp ((exact.sort_perm vals).mem_iff.mpr hv)
  exact Interpolation.getElem?_mono (sort_sorted vals) hfirst hi (Nat.zero_le i)

theorem sort_last (hne : vals≠[]) : (exact.sort vals)[vals.length-1]?=vals.max? := by
  have hpos : 0<vals.length := length_pos_iff.mpr hne
  have hlen : vals.length-1<(exact.sort vals).length := by
    rw [sort_length]
    omega
  have hlast:=getElem?_eq_getElem hlen
  rw [hlast,eq_comm,max?_eq_some_iff]
  refine ⟨(exact.sort_perm vals).mem_iff.mp (getElem_mem hlen),fun v hv => ?_⟩
  obtain ⟨i,hi⟩ := mem_iff_getElem?.mp ((exact.sort_perm vals).mem_iff.mpr hv)
  have hi' : i<(exact.sort vals).length := (List.getElem?_eq_some_iff.mp hi).1
  rw [sort_length] at hi'
  exact Interpolation.getElem?_mono (sort_sorted vals) hi hlast (by omega)

theorem percentile_isSome (hne : vals≠[]) (h0 : 0≤p) (h100 : p≤100) :
    ∃ r, percentile exact (exact.sort vals) p=some r := by
  have hne' := sort_ne_nil hne
  have hlen : (exact.sort vals).length≠0 := mt length_eq_zero_iff.mp hne'
  obtain ⟨hlow,hhigh⟩ := position_bounds hlen h0 h100
  obtain ⟨a,b,-,-,hval⟩ := valueAt_some hlow hhigh hne'
  exact ⟨_,(percentile_exact hne' h0 h100).trans hval⟩

section
variable {K : Type} {A : Numbers K} {fname k : String} {out out' : StringMap K} {ps : List Percent}
  {sorted : List K} {fs : List String} {s : Values K} {s' : Values K}

theorem pushPercentiles_cons {p : Percent} (h : pushPercentiles A fname sorted (p::ps) out=some out') :
    ∃ v, percentile A sorted (A.ofFloat64 p.value)=some v ∧
      pushPercentiles A fname sorted ps (out.insert (key fname p) v)=some out' := by
  rw [pushPercentiles] at h
  split at h
  · cases h
  next v hv => exact ⟨v,hv,h⟩

theorem pushFields_cons {r : Values K × StringMap K}
    (h : pushFields A ps (fname::fs) s out=some r) : s.of fname=[] ∧ pushFields A ps fs s out=some r ∨
      s.of fname≠[] ∧ ∃ mid, pushPercentiles A fname (A.sort (s.of fname)) ps out=some mid ∧
        pushFields A ps fs ⟨s.values.insert fname (A.sort (s.of fname))⟩ mid=some r := by
  rw [pushFields] at h
  split at h
  next hnil => exact .inl ⟨hnil,h⟩
  next hne =>
    dsimp only at h
    split at h
    · cases h
    next mid hmid => exact .inr ⟨hne,mid,hmid,h⟩

theorem pushPercentiles_origin (h : pushPercentiles A fname sorted ps out=some out') {v : K}
    (hk : out'.lookup k=some v) : out.lookup k=some v ∨
      ∃ p∈ps, k=key fname p ∧ percentile A sorted (A.ofFloat64 p.value)=some v := by
  induction ps generalizing out with
  | nil =>
    cases h
    exact .inl hk
  | cons p ps ih =>
    obtain ⟨w,hw,hrest⟩ := pushPercentiles_cons h
    rcases ih hrest with hold | ⟨q,hq,hkey,hval⟩
    · by_cases hkp : k=key fname p
      · subst hkp
        rw [lookup_insert] at hold
        exact .inr ⟨p,mem_cons_self,rfl,hold ▸ hw⟩
      · rw [lookup_insert_ne hkp] at hold
        exact .inl hold
    · exact .inr ⟨q,mem_cons_of_mem p hq,hkey,hval⟩

theorem of_insert_self (s : Values K) (fname : String) (vals : List K) :
    Values.of ⟨s.values.insert fname vals⟩ fname=vals := by rw [Values.of,lookup_insert,getD_some]
theorem of_insert_ne (s : Values K) {g : String} (h : g≠fname) (vals : List K) :
    Values.of ⟨s.values.insert fname vals⟩ g=s.of g := by
  rw [Values.of,lookup_insert_ne h]
  rfl

theorem of_sort_perm (A : Numbers K) (s : Values K) (fname g : String) :
    (Values.of ⟨s.values.insert fname (A.sort (s.of fname))⟩ g).Perm (s.of g) := by
  by_cases h : g=fname
  · subst h
    rw [of_insert_self]
    exact A.sort_perm _
  · rw [of_insert_ne s h]

theorem pushFields_origin (h : pushFields A ps fs s out=some (s',out')) :
    (∀ g, (s'.of g).Perm (s.of g)) ∧ ∀ k v, out'.lookup k=some v → out.lookup k=some v ∨
      ∃ fname∈fs, ∃ p∈ps, k=key fname p ∧ ∃ vals, vals.Perm (s.of fname) ∧
        percentile A (A.sort vals) (A.ofFloat64 p.value)=some v := by
  induction fs generalizing s out with
  | nil =>
    cases h
    exact ⟨fun g => .refl _,fun k v hk => .inl hk⟩
  | cons fname fs ih =>
    rcases pushFields_cons h with ⟨-,hrest⟩ | ⟨-,mid,hmid,hrest⟩
    · obtain ⟨hperm,horigin⟩ := ih hrest
      refine ⟨hperm,fun k v hk => (horigin k v hk).imp_right ?_⟩
      rintro ⟨g,hg,hrest⟩
      exact ⟨g,mem_cons_of_mem fname hg,hrest⟩
    · obtain ⟨hperm,horigin⟩ := ih hrest
      have hsort:=of_sort_perm A s fname
      refine ⟨fun g => (hperm g).trans (hsort g),fun k v hk => ?_⟩
      rcases horigin k v hk with hold | ⟨g,hg,p,hp,hkey,vals,hvals,hval⟩
      · refine (pushPercentiles_origin hmid hold).imp_right ?_
        rintro ⟨p,hp,hkey,hval⟩
        exact ⟨fname,mem_cons_self,p,hp,hkey,s.of fname,.refl _,hval⟩
      · exact .inr ⟨g,mem_cons_of_mem fname hg,p,hp,hkey,vals,hvals.trans (hsort g),hval⟩

theorem pushPercentiles_keys (h : pushPercentiles A fname sorted ps out=some out')
    (hk : (out.lookup k).isSome ∨ ∃ p∈ps, k=key fname p) : (out'.lookup k).isSome := by
  induction ps generalizing out with
  | nil =>
    cases h
    rcases hk with hk | ⟨p,hp,-⟩
    · exact hk
    · exact absurd hp not_mem_nil
  | cons p ps ih =>
    obtain ⟨v,-,hrest⟩ := pushPercentiles_cons h
    refine ih hrest ?_
    by_cases hkp : k=key fname p
    · left
      rw [hkp,lookup_insert]
      rfl
    · rw [lookup_insert_ne hkp]
      refine hk.imp_right ?_
      rintro ⟨q,hq,hkq⟩
      rcases mem_cons.mp hq with rfl | hq
      · exact absurd hkq hkp
      · exact ⟨q,hq,hkq⟩

theorem pushFields_keys (h : pushFields A ps fs s out=some (s',out')) (hk : (out.lookup k).isSome ∨
      ∃ fname∈fs, s.of fname≠[] ∧ ∃ p∈ps, k=key fname p) : (out'.lookup k).isSome := by
  induction fs generalizing s out with
  | nil =>
    cases h
    rcases hk with hk | ⟨f,hf,-⟩
    · exact hk
    · exact absurd hf not_mem_nil
  | cons fname fs ih =>
    rcases pushFields_cons h with ⟨hnil,hrest⟩ | ⟨-,mid,hmid,hrest⟩
    · refine ih hrest (hk.imp_right ?_)
      rintro ⟨f,hf,hvals,hkey⟩
      rcases mem_cons.mp hf with rfl | hf
      · exact absurd hnil hvals
      · exact ⟨f,hf,hvals,hkey⟩
    · refine ih hrest ?_
      rcases hk with hk | ⟨f,hf,hvals,hkey⟩
      · exact .inl (pushPercentiles_keys hmid (.inl hk))
      · rcases mem_cons.mp hf with rfl | hf
        · exact .inl (pushPercentiles_keys hmid (.inr hkey))
        · refine .inr ⟨f,hf,?_,hkey⟩
          intro hnil
          have hperm:=of_sort_perm A s fname f
          rw [hnil] at hperm
          exact hvals hperm.nil_eq.symm

theorem keeps : Keeps addValue (Values.of (K := K)) List.Perm where
  self s fname v vals h := by
    rw [addValue,of_insert_self]
    exact h.append_right [v]
  other s fname g v hne := of_insert_ne s hne _

theorem new_holds (A : Numbers K) (fields : List String) (ps : List Percent) :
    (new fields ps).Holds A Values.of List.Perm [] :=
  Aggregator.new_holds A fields fun _ => .refl _

theorem push_value {a b : PercentileAggregator K} {ms : List Metric} {outs : List (Aggregate K)}
    (h : a.Holds A Values.of List.Perm ms) (hpush : push A a=some (b,outs)) :
    b.fields=a.fields ∧ b.percentiles=a.percentiles ∧ b.Holds A Values.of List.Perm ms ∧
      ∀ out∈outs, out.name=a.name ∧ out.tags=a.tags ∧ ∀ k v, out.fields.lookup k=some v →
        ∃ fname∈a.fields, ∃ p∈a.percentiles, k=key fname p ∧ ∃ vals, vals.Perm (A.numbers fname ms) ∧
            percentile A (A.sort vals) (A.ofFloat64 p.value)=some v := by
  rw [push] at hpush
  split at hpush
  · cases hpush
    exact ⟨rfl,rfl,h,fun out hout => absurd hout not_mem_nil⟩
  · obtain ⟨⟨s,fields⟩,hr,heq⟩ := map_eq_some_iff.mp hpush
    cases heq
    obtain ⟨hperm,horigin⟩ := pushFields_origin hr
    refine ⟨rfl,rfl,⟨h.captured,fun fname hf => (hperm fname).trans (h.kept fname hf)⟩,?_⟩
    intro out hout
    cases eq_of_mem_emit hout
    refine ⟨rfl,rfl,fun k v hk => ?_⟩
    rcases horigin k v hk with hold | ⟨fname,hf,p,hp,hkey,vals,hvals,hval⟩
    · rw [lookup_empty] at hold
      cases hold
    · exact ⟨fname,hf,p,hp,hkey,vals,hvals.trans (h.kept fname hf),hval⟩

end

theorem percentile_value_isSome (hne : vals≠[]) (p : Percent) :
    ∃ r, percentile exact (exact.sort vals) (exact.ofFloat64 p.value)=some r :=
  percentile_isSome hne p.value_bounds.1 p.value_bounds.2

theorem pushPercentiles_isSome (fname : String) (hne : vals≠[]) (ps : List Percent)
    (out : StringMap ℚ) : ∃ out', pushPercentiles exact fname (exact.sort vals) ps out=some out' := by
  induction ps generalizing out with
  | nil => exact ⟨out,rfl⟩
  | cons p ps ih =>
    obtain ⟨r,hr⟩ := percentile_value_isSome hne p
    rw [pushPercentiles,hr]
    exact ih _

theorem pushFields_isSome (ps : List Percent) (fs : List String) (s : Values ℚ) (out : StringMap ℚ) :
    ∃ r, pushFields exact ps fs s out=some r := by
  induction fs generalizing s out with
  | nil => exact ⟨_,rfl⟩
  | cons fname fs ih =>
    rw [pushFields]
    split
    · exact ih s out
    next hne =>
      obtain ⟨mid,hmid⟩ := pushPercentiles_isSome fname hne ps out
      simp only [hmid]
      exact ih _ mid

theorem digits_cancel {xs ys ds es : List Char} (hd : ∀ c∈ds, c.isDigit)
    (he : ∀ c∈es, c.isDigit) (h : xs ++ '_' :: 'p' :: ds=ys ++ '_' :: 'p' :: es) : xs=ys ∧ ds=es := by
  have htake : ∀ zs cs : List Char, (∀ c∈cs, c.isDigit) →
      ((zs ++ '_' :: 'p' :: cs).reverse.takeWhile Char.isDigit)=cs.reverse := by
    intro zs cs hcs
    have hrev : (zs ++ '_' :: 'p' :: cs).reverse=cs.reverse ++ 'p' :: '_' :: zs.reverse := by simp
    rw [hrev,takeWhile_append_of_pos fun c hc => hcs c (mem_reverse.mp hc)]
    simp
  have hds : ds=es := by
    have hrev:=(htake xs ds hd).symm.trans ((congrArg _ (congrArg reverse h)).trans (htake ys es he))
    exact reverse_inj.mp hrev
  subst hds
  exact ⟨append_cancel_right h,rfl⟩

theorem key_toList (fname : String) (p : Percent) :
    (key fname p).toList=fname.toList ++ '_' :: 'p' :: Nat.toDigits 10 p.whole := by
  have hint : toString (p.whole : ℤ)=p.whole.repr := rfl
  rw [key,p.truncate_whole,hint]
  simp [Nat.toList_repr]

theorem key_inj {fname g : String} {p q : Percent} (h : key fname p=key g q) :
    fname=g ∧ p.whole=q.whole := by
  have hlist:=congrArg String.toList h
  rw [key_toList,key_toList] at hlist
  have hdigit : ∀ n : ℕ, ∀ c∈Nat.toDigits 10 n, c.isDigit :=
    fun n c hc => Nat.isDigit_of_mem_toDigits (by decide) (by decide) hc
  obtain ⟨hname,hdigits⟩ := digits_cancel (hdigit _) (hdigit _) hlist
  refine ⟨String.toList_inj.mp hname,?_⟩
  have hvalue:=congrArg (fun cs => Nat.ofDigitChars 10 cs 0) hdigits
  simpa only [Nat.ofDigitChars_ten_toDigits] using hvalue

theorem percentile_mono (hne : vals≠[]) {p q : ℕ} (hpq : p≤q) (hq : q≤100)
    {r s : ℚ} (hr : percentile exact (exact.sort vals) p=some r)
    (hs : percentile exact (exact.sort vals) q=some s) : r ≤ s := by
  have hne' := sort_ne_nil hne
  have hlen : (exact.sort vals).length≠0 := mt length_eq_zero_iff.mp hne'
  have hp0 : (0 : ℚ)≤p := Nat.cast_nonneg p
  have hpq' : (p : ℚ)≤q := by exact_mod_cast hpq
  have hq' : (q : ℚ)≤100 := by exact_mod_cast hq
  rw [percentile_exact hne' hp0 (hpq'.trans hq')] at hr
  rw [percentile_exact hne' (hp0.trans hpq') hq'] at hs
  exact valueAt_mono (sort_sorted vals) (position_bounds hlen hp0 (hpq'.trans hq')).1
    (position_mono hlen hpq') (position_bounds hlen (hp0.trans hpq') hq').2 hne' hr hs

theorem percentile_zero (hne : vals≠[]) : percentile exact (exact.sort vals) (0 : ℕ)=vals.min? := by
  have hzero : position (exact.sort vals).length (0 : ℕ)=(0 : ℕ) := by simp [position]
  obtain ⟨a,ha⟩ : ∃ a, (exact.sort vals)[0]?=some a :=
    ⟨_,getElem?_eq_getElem (length_pos_iff.mpr (sort_ne_nil hne))⟩
  rw [percentile_exact (sort_ne_nil hne) (by simp) (by simp),hzero,
    valueAt_natCast ha,← ha,sort_first hne]

theorem percentile_hundred (hne : vals≠[]) : percentile exact (exact.sort vals) (100 : ℕ)=vals.max? := by
  have hpos : 1≤vals.length := length_pos_iff.mpr hne
  have hlast : position (exact.sort vals).length (100 : ℕ)=(vals.length-1 : ℕ) := by
    rw [position,sort_length,Nat.cast_sub hpos]
    push_cast
    ring
  obtain ⟨a,ha⟩ : ∃ a, (exact.sort vals)[vals.length-1]?=some a :=
    ⟨_,getElem?_eq_getElem (by rw [sort_length]; omega)⟩
  rw [percentile_exact (sort_ne_nil hne) (by simp) (by simp),hlast,
    valueAt_natCast ha,← ha,sort_last hne]

theorem lookup_pushed {a b : PercentileAggregator ℚ} {outs : List (Aggregate ℚ)}
    (h : push exact a=some (b,outs)) {fname : String} (hf : fname∈a.fields)
    (hne : a.kept.of fname≠[]) {p : Percent} (hp : p∈a.percentiles) :
    ∃ out∈outs, out.fields.lookup (key fname p) =
      percentile exact (exact.sort (a.kept.of fname)) (p.whole : ℕ) := by
  rw [push] at h
  split at h
  next hempty =>
    have hnil : a.kept.values = ∅ := AList.ext (isEmpty_iff.mp hempty)
    refine absurd ?_ hne
    rw [Values.of,hnil,lookup_empty]
    rfl
  next =>
    obtain ⟨⟨s,fields⟩,hr⟩ := pushFields_isSome a.percentiles a.fields a.kept ∅
    rw [hr] at h
    cases h
    have hkey:=pushFields_keys hr (.inr ⟨fname,hf,hne,p,hp,rfl⟩)
    obtain ⟨v,hv⟩ := isSome_iff_exists.mp hkey
    have hemit : emit a.name a.tags fields=[⟨a.name,a.tags,fields⟩] := by
      refine if_neg fun hnil => ?_
      rw [AList.ext (isEmpty_iff.mp hnil) (t := ∅),lookup_empty] at hv
      cases hv
    refine ⟨⟨a.name,a.tags,fields⟩,by rw [hemit]; exact mem_singleton_self _,?_⟩
    change fields.lookup (key fname p)=_
    rcases (pushFields_origin hr).2 _ v hv with hold | ⟨g,-,q,-,hk,vals,hvals,hval⟩
    · rw [lookup_empty] at hold
      cases hold
    · obtain ⟨rfl,hwhole⟩ := key_inj hk
      have hq : exact.ofFloat64 q.value=(p.whole : ℕ) := q.value_eq.trans (by rw [hwhole])
      rw [hv,← hval,hq,sort_eq_of_perm hvals]

/-- With exact arithmetic `Push` gives each configured percentile of the values, in any order of them;
from 0 to 100 it grows from the minimum to the maximum. -/
theorem push_exact_percentiles (a : PercentileAggregator ℚ) (fname : String) (hf : fname∈a.fields)
    (hne : a.kept.of fname≠[]) :
    ∃ lo hi, (a.kept.of fname).min?=some lo ∧ (a.kept.of fname).max?=some hi ∧ ∃ result : ℕ → ℚ,
        (∃ b outs, push exact a=some (b,outs) ∧ ∀ p∈a.percentiles, p.whole≤100 ∧
          ∃ out∈outs, out.fields.lookup (key fname p)=some (result p.whole)) ∧
        (∀ vals, vals.Perm (a.kept.of fname) → ∀ p≤100,
          percentile exact (exact.sort vals) (p : ℕ)=some (result p)) ∧
        (∀ p≤100, lo≤result p ∧ result p≤hi) ∧ result 0=lo ∧ result 100=hi ∧
        ∀ p q, p≤q → q≤100 → result p≤result q := by
  generalize hvals : a.kept.of fname=vals at hne ⊢
  have hsome : ∀ p : ℕ, p≤100 → ∃ r, percentile exact (exact.sort vals) (p : ℕ)=some r :=
    fun p hp => percentile_isSome hne (Nat.cast_nonneg p) (by exact_mod_cast hp)
  choose! result hresult using hsome
  have hmono : ∀ p q, p≤q → q≤100 → result p≤result q := fun p q hpq hq =>
    percentile_mono hne hpq hq (hresult p (hpq.trans hq)) (hresult q hq)
  have hlo:=(percentile_zero hne).symm.trans (hresult 0 (by omega))
  have hhi:=(percentile_hundred hne).symm.trans (hresult 100 le_rfl)
  refine ⟨result 0,result 100,hlo,hhi,result,?_,?_,?_,rfl,rfl,hmono⟩
  · obtain ⟨b,outs,hpush⟩ : ∃ b outs, push exact a=some (b,outs) := by
      rw [push]
      split
      · exact ⟨_,_,rfl⟩
      · obtain ⟨r,hr⟩ := pushFields_isSome a.percentiles a.fields a.kept ∅
        rw [hr]
        exact ⟨_,_,rfl⟩
    refine ⟨b,outs,hpush,fun p hp => ⟨p.whole_le,?_⟩⟩
    obtain ⟨out,hout,hval⟩ := lookup_pushed hpush hf (hvals ▸ hne) hp
    rw [hvals,hresult p.whole p.whole_le] at hval
    exact ⟨out,hout,hval⟩
  · intro vals' hperm p hp
    rw [sort_eq_of_perm hperm]
    exact hresult p hp
  · intro p hp
    exact ⟨hmono 0 p (Nat.zero_le p) hp,hmono p 100 hp le_rfl⟩

def responseTimes (times : List Int64) : PercentileAggregator ℚ :=
  (times.map fun t => (⟨"http",∅,(∅ : StringMap FieldValue).insert "ms" (.int64 t),.gauge⟩ :
    Metric)).foldl (add exact) (new ["ms"] defaultPercentiles)

theorem push_exact_percentiles_three :
    (responseTimes [30,10,20]).kept.of "ms"=[30,10,20] ∧ ∃ result : ℕ → ℚ,
      result 0=10 ∧ result 100=30 ∧ (∀ p q, p≤q → q≤100 → result p≤result q) ∧
      ∃ b outs, push exact (responseTimes [30,10,20])=some (b,outs) ∧
        ∀ p∈defaultPercentiles, p.whole≤100 ∧
          ∃ out∈outs, out.fields.lookup (key "ms" p)=some (result p.whole) := by
  have hvals : (responseTimes [30,10,20]).kept.of "ms"=[30,10,20] := by decide +kernel
  obtain ⟨lo,hi,hlo,hhi,result,hpush,-,-,h0,h100,hmono⟩ :=
    push_exact_percentiles (responseTimes [30,10,20]) "ms" mem_cons_self (by rw [hvals]; simp)
  rw [hvals] at hlo hhi
  have hmin : some lo=some 10 := hlo.symm.trans (by decide +kernel)
  have hmax : some hi=some 30 := hhi.symm.trans (by decide +kernel)
  cases hmin
  cases hmax
  exact ⟨hvals,result,h0,h100,hmono,hpush⟩

end OpsAgent.Collector.Percentile
