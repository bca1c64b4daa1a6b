import OpsAgent.Collector.Delta
import OpsAgent.Lib.FloatExact

/-!
# Sums of the outputs of the delta processor
-/

namespace OpsAgent.Collector.Delta
open Lib Lib.GoValue List Option Float64
open Lib.GoTime (Time)
open Lib.GoValue.Float64 (Denotes Fits)

def number : FieldValue → Option ℚ
  | .int64 n => some n.toInt
  | .int n => some n.toInt
  | .int32 n => some n.toInt
  | .uint n => some n.toNat
  | .uint32 n => some n.toNat
  | .uint64 n => some n.toNat
  | .float64 x => if x.isFinite then some x.value else none
  | .float32 x =>
    if (Float64.ofFloat32 x).isFinite then some (Float64.ofFloat32 x).value else none
  | _ => none

def isInt64 : FieldValue → Bool
  | .int64 _ => true
  | _ => false
def valueOf (f : String) (m : TimedMetric) : Option ℚ := (m.fields.lookup f).bind number

theorem number_zeroOfSameType (v : FieldValue) : number (zeroOfSameType v)=some 0 := by
  have h64 : number (.float64 ⟨0⟩)=some 0 := by
    have hfinite : Float64.isFinite ⟨0⟩ := rfl
    rw [number,hfinite,if_pos rfl,(value_eq_zero_iff _).mpr rfl]
  have h32 : number (.float32 ⟨0⟩)=some 0 := by
    have hof : Float64.ofFloat32 ⟨0⟩=⟨0⟩ := by
      simp [Float64.ofFloat32,Float64.singleValue,Float64.nearestMag,Float64.ofMag]
    rw [number,hof]
    exact h64
  cases v with
  | float32 x => exact h32
  | int64 n | int n => simp [zeroOfSameType,number]
  | _ => exact h64

variable {v : FieldValue} {x : Float64} {n : ℤ} {unfit : Float64 → Int64}
  {elapsed y : Float64} {w : FieldValue}

theorem denotes_toFloat64 (hx : toFloat64 v=some x)
    (hv : number v=some (n : ℚ)) (hn : Fits n) : x.Denotes n := by
  have hfloat : ∀ y : Float64, (if y.isFinite then some y.value else none)=some (n : ℚ) →
      y.Denotes n := by
    intro y hy
    split at hy
    · exact ⟨‹_›,some.inj hy⟩
    · cases hy
  have hint : ∀ k : Int64, some (k.toInt : ℚ)=some (n : ℚ) → (Float64.ofInt k.toInt).Denotes n := by
    intro k hk
    rw [Int.cast_inj.mp (some.inj hk)]
    exact denotes_ofInt hn
  cases v with
  | float64 y | float32 y =>
    cases hx
    exact hfloat _ hv
  | int64 k | int k =>
    cases hx
    exact hint k hv
  | _ => cases hx

theorem changed_delta (hx : toFloat64 v=some x) (hy : toFloat64 w=some y) (hge : Float64.lt y x=false) :
    changed unfit .delta elapsed v w =
      if isInt64 v&&isInt64 w then .int64 (Float64.toInt64 unfit (Float64.sub y x))
      else .float64 (Float64.sub y x) := by
  have hdelta : computeDelta v w=some (Float64.sub y x) := by simp [computeDelta,hx,hy,hge]
  rw [changed,hdelta]
  cases v <;> cases w <;> rfl

theorem number_changed {k : ℤ} (hx : toFloat64 v=some x) (hy : toFloat64 w=some y) (hv : x.Denotes n)
    (hw : y.Denotes k) (hle : n≤k) (hfits : Fits ((k-n : ℤ) : ℚ))
    (hint : isInt64 v → isInt64 w → k-n<2^63) :
    number (changed unfit .delta elapsed v w)=some ((k-n : ℤ) : ℚ) := by
  have hge : Float64.lt y x=false := by
    rw [Bool.eq_false_iff,ne_eq,lt_iff_value hw.finite hv.finite,hw.value,hv.value,Int.cast_lt]
    omega
  have hsub : (Float64.sub y x).Denotes ((k-n : ℤ) : ℚ) := by
    rw [Int.cast_sub] at hfits ⊢
    exact denotes_sub hw hv hfits
  rw [changed_delta hx hy hge]
  split
  · rename_i hboth
    rw [Bool.and_eq_true] at hboth
    have hhigh:=hint hboth.1 hboth.2
    have hlow : -2^63≤k-n := by omega
    rw [toInt64_of_denotes hsub hlow hhigh,number,Int64.toInt_ofInt_of_le hlow hhigh]
  · rw [number,hsub.finite,if_pos rfl,hsub.value]

theorem lookup_newFields {c : Settings} {f : String} (hf : f∈c.fields)
    (prev : Option Entry) {m : TimedMetric} (hv : m.fields.lookup f=some v) :
    (newFields unfit c prev m).lookup f = some (newValue unfit c.outputMode prev m.timestamp f v) := by
  have hloop : ∀ body : StringMap FieldValue → String → StringMap FieldValue,
      (∀ out g, body out g=(m.fields.lookup g).elim out fun curVal =>
        out.insert g (newValue unfit c.outputMode prev m.timestamp g curVal)) →
      ∀ (fs : List String) (out : StringMap FieldValue), (fs.foldl body out).lookup f =
        if f∈fs then some (newValue unfit c.outputMode prev m.timestamp f v) else out.lookup f := by
    intro body hbody fs
    induction fs with
    | nil => exact fun out => rfl
    | cons g fs ih =>
      intro out
      rw [foldl_cons,ih,hbody]
      by_cases hfs : f∈fs
      · rw [if_pos hfs,if_pos (mem_cons_of_mem g hfs)]
      · rw [if_neg hfs]
        by_cases hfg : f=g
        · rw [← hfg,hv,if_pos mem_cons_self]
          exact AList.lookup_insert out
        · rw [if_neg (by simp [hfg,hfs])]
          cases m.fields.lookup g with
          | none => rfl
          | some w => exact AList.lookup_insert_ne hfg
  refine (hloop _ (fun out g => ?_) c.fields m.fields).trans (if_pos hf)
  cases m.fields.lookup g <;> rfl

def ExactDifference (f : String) (m m' : TimedMetric) : Prop :=
  ∀ v w, m.fields.lookup f=some v → m'.fields.lookup f=some w →
    ∀ n k : ℤ, number v=some (n : ℚ) → number w=some (k : ℚ) →
      Fits ((k-n : ℤ) : ℚ) ∧ (isInt64 v → isInt64 w → k-n<2^63)
def differences : ℤ → List ℤ → List ℤ
  | _, [] => []
  | last, n::ns => (n-last)::differences n ns

theorem differences_nonneg {last : ℤ} {ns : List ℤ} (h : (last::ns).IsChain (· ≤ ·)) :
    ∀ d∈differences last ns, 0≤d := by
  induction ns generalizing last with
  | nil => exact nofun
  | cons n ns ih =>
    obtain ⟨hle,hrest⟩ := isChain_cons_cons.mp h
    intro d hd
    rcases mem_cons.mp hd with rfl | hd
    · omega
    · exact ih hrest d hd

theorem sum_take_differences (last : ℤ) (ns : List ℤ) {k : Nat} (h : ns[k]?=some n) :
    ((differences last ns).take (k+1)).sum=n-last := by
  induction ns generalizing last k with
  | nil => cases h
  | cons x ns ih =>
    rw [differences,take_succ_cons,sum_cons]
    cases k with
    | zero =>
      cases h
      simp
    | succ k =>
      rw [getElem?_cons_succ] at h
      rw [ih x h]
      omega

section Totals
variable {unfit : Float64 → Int64} {c : Settings} {f : String}

structure Reads (f : String) (m : TimedMetric) (n : ℤ) : Prop where
  value : valueOf f m=some (n : ℚ)
  taken : ∀ v, m.fields.lookup f=some v → (toFloat64 v).isSome
  fits : Fits n

variable {m : TimedMetric} {n : ℤ} {ms : List TimedMetric} {ns : List ℤ}

theorem Reads.field (h : Reads f m n) :
    ∃ v x, m.fields.lookup f=some v ∧ number v=some (n : ℚ) ∧ toFloat64 v=some x ∧ x.Denotes n := by
  obtain ⟨v,hv,hn⟩ := bind_eq_some_iff.mp h.value
  obtain ⟨x,hx⟩ := isSome_iff_exists.mp (h.taken v hv)
  exact ⟨v,x,hv,hn,hx,denotes_toFloat64 hx hn h.fits⟩

theorem valueOf_updated_first (hf : f∈c.fields) (h : Reads f m n) :
    valueOf f (updated unfit c none m)=some 0 := by
  obtain ⟨v,-,hv,-,-,-⟩ := h.field
  rw [valueOf,updated,lookup_newFields hf none hv]
  exact number_zeroOfSameType v

theorem valueOf_updated_not_taken (hf : f∈c.fields) (prev : Option Entry)
    {v : FieldValue} (hv : m.fields.lookup f=some v) (hnone : toFloat64 v=none) :
    valueOf f (updated unfit c prev m)=some 0 := by
  have hdelta : ∀ w, computeDelta w v=none := by
    intro w
    cases hw : toFloat64 w <;> simp [computeDelta,hw,hnone]
  have hvalue : newValue unfit c.outputMode prev m.timestamp f v=zeroOfSameType v := by
    unfold newValue
    split
    · rfl
    · split
      · rfl
      · rw [changed,hdelta]
  rw [valueOf,updated,lookup_newFields hf prev hv,hvalue]
  exact number_zeroOfSameType v

theorem valueOf_updated (hmode : c.outputMode=.delta) (hf : f∈c.fields) {m' : TimedMetric}
    {k : ℤ} (h : Reads f m n) (h' : Reads f m' k) (hle : n≤k) (hexact : ExactDifference f m m') :
    valueOf f (updated unfit c (some (entryOf m)) m')=some ((k-n : ℤ) : ℚ) := by
  obtain ⟨v,x,hv,hn,hx,hxn⟩ := h.field
  obtain ⟨w,y,hw,hk,hy,hyk⟩ := h'.field
  obtain ⟨hfits,hint⟩ := hexact v w hv hw n k hn hk
  have hprev : (entryOf m).values.lookup f=some v := hv
  rw [valueOf,updated,lookup_newFields hf _ hw,bind_some,hmode]
  simp only [newValue,hprev]
  exact number_changed hx hy hxn hyk hle hfits hint

theorem track_values (hmode : c.outputMode=.delta) (hf : f∈c.fields) (h : Reads f m n) (hms : List.Forall₂ (Reads f) ms ns)
    (hmono : (n::ns).IsChain (· ≤ ·)) (hexact : (m::ms).IsChain (ExactDifference f)) :
    (KeyedStream.track (rule unfit c) (some (entryOf m)) ms).2.map (valueOf f) =
      (differences n ns).map fun d : ℤ => some (d : ℚ) := by
  induction hms generalizing m n with
  | nil => rfl
  | @cons m' k ms ns h' _ ih =>
    obtain ⟨hle,hmono⟩ := isChain_cons_cons.mp hmono
    obtain ⟨hdiff,hexact⟩ := isChain_cons_cons.mp hexact
    have hhead : valueOf f (updated unfit c (some (entryOf m)) m')=some ((k-n : ℤ) : ℚ) :=
      valueOf_updated hmode hf h h' hle hdiff
    have htail:=ih h' hmono hexact
    rw [KeyedStream.track,differences,map_cons,map_cons]
    exact congrArg₂ cons hhead htail

theorem reads_of_values (hvalues : ms.map (valueOf f)=ns.map fun n : ℤ => some (n : ℚ))
    (htypes : ∀ m∈ms, ∀ v, m.fields.lookup f=some v → (toFloat64 v).isSome)
    (hfits : ∀ n∈ns, Fits (n : ℚ)) : List.Forall₂ (Reads f) ms ns := by
  induction ms generalizing ns with
  | nil =>
    cases ns with
    | nil => exact .nil
    | cons n ns => cases hvalues
  | cons m ms ih =>
    cases ns with
    | nil => cases hvalues
    | cons n ns =>
      rw [map_cons,map_cons,cons.injEq] at hvalues
      rw [forall_mem_cons] at htypes hfits
      exact .cons ⟨hvalues.1,htypes.1,hfits.1⟩ (ih hvalues.2 htypes.2 hfits.2)

def neverStale (c : Settings) (σ : Series) (bs : List (List TimedMetric)) : Bool :=
  KeyedStream.kept entryOf (stale c) (ofSeries σ) none bs

/-- For integers that do not fall, the outputs are not negative, begin with 0 and add up to the value
minus the first one, if the types are taken and nothing rounds. -/
theorem sum_of_deltas {σ : Series} {bs : List (List TimedMetric)} {ns : List ℤ}
    (hmode : c.outputMode=.delta) (hf : f∈c.fields) (hkey : ownKey σ bs) (hkept : neverStale c σ bs=true)
    (hvalues : (bs.flatten.filter (ofSeries σ)).map (valueOf f)=ns.map fun n : ℤ => some (n : ℚ))
    (htypes : ∀ m∈bs.flatten.filter (ofSeries σ), ∀ v, m.fields.lookup f=some v →
      (toFloat64 v).isSome=true) (hmono : ns.IsChain (· ≤ ·)) (hfits : ∀ n∈ns, Fits (n : ℚ))
    (hexact : (bs.flatten.filter (ofSeries σ)).IsChain (ExactDifference f)) : ∃ ds : List ℤ,
      (outputs unfit c σ bs).map (valueOf f)=ds.map (fun d : ℤ => some (d : ℚ)) ∧ (∀ d∈ds, 0≤d) ∧
      ∀ first, ns.head?=some first → ds.head?=some 0 ∧
        ∀ k n, ns[k]?=some n → (ds.take (k+1)).sum=n-first := by
  have hkept' : KeyedStream.kept (rule unfit c).store (stale c) (ofSeries σ) none bs=true := hkept
  rw [outputs_eq_track hkey,KeyedStream.trackBatches_kept hkept']
  generalize bs.flatten.filter (ofSeries σ)=ms at hvalues htypes hexact
  cases reads_of_values hvalues htypes hfits with
  | nil => exact ⟨[],rfl,nofun,nofun⟩
  | @cons m n ms ns h hms =>
    have hfirst : valueOf f (updated unfit c none m)=some 0 := valueOf_updated_first hf h
    have hrest : (KeyedStream.track (rule unfit c) (some (entryOf m)) ms).2.map (valueOf f) =
        (differences n ns).map fun d : ℤ => some (d : ℚ) := track_values hmode hf h hms hmono hexact
    refine ⟨0::differences n ns,?_,?_,?_⟩
    · rw [KeyedStream.track,map_cons,map_cons,Int.cast_zero]
      exact congrArg₂ cons hfirst hrest
    · exact forall_mem_cons.mpr ⟨le_rfl,differences_nonneg hmono⟩
    · intro first hhead
      cases hhead
      refine ⟨rfl,?_⟩
      have hds : 0::differences n ns=differences n (n::ns) := by rw [differences,sub_self]
      rw [hds]
      exact fun k x hk => sum_take_differences n (n::ns) hk

theorem isChain_exactDifference (hvalues : ms.map (valueOf f)=ns.map fun n : ℤ => some (n : ℚ))
    (hsmall : ∀ n∈ns, 0≤n ∧ n≤2^53) : ms.IsChain (ExactDifference f) := by
  induction ms generalizing ns with
  | nil => exact .nil
  | cons m ms ih =>
    cases ms with
    | nil => exact .singleton m
    | cons m' ms =>
      match ns, hvalues with
      | [_], hvalues => simp at hvalues
      | a::b::ns, hvalues =>
        have htail:=ih (cons.inj hvalues).2 fun n hn => hsmall n (mem_cons_of_mem a hn)
        refine isChain_cons_cons.mpr ⟨?_,htail⟩
        intro v w hv hw n k hn hk
        have ha : valueOf f m=some (a : ℚ) := (cons.inj hvalues).1
        have hb : valueOf f m' = some (b : ℚ) := (cons.inj (cons.inj hvalues).2).1
        rw [valueOf,hv,bind_some,hn,some.injEq,Int.cast_inj] at ha
        rw [valueOf,hw,bind_some,hk,some.injEq,Int.cast_inj] at hb
        have hna:=hsmall a mem_cons_self
        have hkb:=hsmall b (by simp)
        refine ⟨fits_intCast ?_,fun _ _ => ?_⟩
        · omega
        · omega

end Totals

def counted (v : FieldValue) (timestamp : Time) : TimedMetric :=
  ⟨⟨"if",∅,(∅ : StringMap FieldValue).insert "in" v,.counter⟩,timestamp⟩
def rising (x y z : FieldValue) : List (List TimedMetric) :=
  [[counted x 1000000000,counted y 2000000000],[counted z 3000000000]]
def totals : Settings := ⟨["in"],.delta,300⟩

theorem sum_of_deltas_rising : ∃ ds : List ℤ,
      (outputs (fun _ => 0) totals ("if",[]) (rising (.int64 5) (.int 7) (.int64 12))).map
        (valueOf "in")=ds.map (fun d : ℤ => some (d : ℚ)) ∧ (ds.take 3).sum=12-5 := by
  have hvalues : ((rising (.int64 5) (.int 7) (.int64 12)).flatten.filter
      (ofSeries ("if",[]))).map (valueOf "in")=[5,7,12].map fun n : ℤ => some (n : ℚ) := rfl
  have hsmall : ∀ n∈([5,7,12] : List ℤ), 0≤n ∧ n≤2^53 := by decide
  have htypes : ∀ m∈(rising (.int64 5) (.int 7) (.int64 12)).flatten.filter (ofSeries ("if",[])),
      ∀ v, m.fields.lookup "in"=some v → (toFloat64 v).isSome=true := by
    intro m hm v hv
    simp only [rising,flatten_cons,flatten_nil,append_nil,cons_append,
      nil_append,mem_filter,mem_cons,not_mem_nil,or_false] at hm
    rcases hm.1 with rfl | rfl | rfl
    · cases hv
      rfl
    · cases hv
      rfl
    · cases hv
      rfl
  have hfits : ∀ n∈([5,7,12] : List ℤ), Fits (n : ℚ) := by
    intro n hn
    have := hsmall n hn
    exact fits_intCast (by omega)
  have hkept : neverStale totals ("if",[]) (rising (.int64 5) (.int 7) (.int64 12))=true := rfl
  obtain ⟨ds,hds,-,hsums⟩ := sum_of_deltas rfl (by decide) (by decide) hkept hvalues htypes
    (by decide) hfits (isChain_exactDifference hvalues hsmall)
  exact ⟨ds,hds,(hsums 5 rfl).2 2 12 rfl⟩

/-- With the same values as a `Counter64` of the SNMP input has them, all outputs are 0. -/
theorem unsigned_deltas_zero : ownKey ("if",[]) (rising (.uint64 5) (.uint64 7) (.uint64 12)) ∧
      neverStale totals ("if",[]) (rising (.uint64 5) (.uint64 7) (.uint64 12))=true ∧
      ((rising (.uint64 5) (.uint64 7) (.uint64 12)).flatten.filter (ofSeries ("if",[]))).map
        (valueOf "in")=[5,7,12].map (fun n : ℤ => some (n : ℚ)) ∧ ∀ unfit, ¬ ∃ ds : List ℤ,
        (outputs unfit totals ("if",[]) (rising (.uint64 5) (.uint64 7) (.uint64 12))).map
          (valueOf "in")=ds.map (fun d : ℤ => some (d : ℚ)) ∧ (ds.take 3).sum=12-5 := by
  refine ⟨by decide,rfl,rfl,fun unfit => ?_⟩
  rintro ⟨ds,hds,hsum⟩
  have hkey : ownKey ("if",[]) (rising (.uint64 5) (.uint64 7) (.uint64 12)) := by decide
  have hkept : KeyedStream.kept (rule unfit totals).store (stale totals) (ofSeries ("if",[])) none
    (rising (.uint64 5) (.uint64 7) (.uint64 12))=true := rfl
  have hzero : ∀ prev n t, valueOf "in" (updated unfit totals prev (counted (.uint64 n) t))=some 0 :=
    fun prev n t => valueOf_updated_not_taken (by decide) prev rfl rfl
  have hall : (outputs unfit totals ("if",[]) (rising (.uint64 5) (.uint64 7) (.uint64 12))).map
      (valueOf "in")=[0,0,0].map fun d : ℤ => some (d : ℚ) := by
    rw [outputs_eq_track hkey,KeyedStream.trackBatches_kept hkept]
    exact congrArg₂ cons (hzero _ _ _)
      (congrArg₂ cons (hzero _ _ _) (congrArg₂ cons (hzero _ _ _) rfl))
  rw [hall] at hds
  have hinj : Function.Injective fun d : ℤ => some (d : ℚ) := fun a b h =>
    Int.cast_inj.mp (some.inj h)
  rw [← map_injective_iff.mpr hinj hds] at hsum
  exact absurd hsum (by decide)

end OpsAgent.Collector.Delta
