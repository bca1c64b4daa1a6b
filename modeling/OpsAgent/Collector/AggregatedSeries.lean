import OpsAgent.Collector.Percentile
import OpsAgent.Collector.SumAggregator
import OpsAgent.Lib.Window

/-!
# Aggregates and series
-/

namespace OpsAgent.Collector
open List Option
open Lib.Window (Machine Call sinceReset)
open Lib.GoValue (Float64)

def inSeries (name : String) (tags : StringMap String) (m : Metric) : Bool :=
  m.name=name ∧ sortedTags m.tags=sortedTags tags
def OneSeries (fields : List String) (ms : List Metric) : Prop :=
  ∀ m∈ms, ∀ m' ∈ ms, carries fields m → carries fields m' = true →
    inSeries m.name m.tags m' = true

theorem lookup_union (s t : StringMap String) (k : String) :
    (s ∪ t).lookup k=(s.lookup k).or (t.lookup k) := by
  by_cases h : k∈s
  · obtain ⟨v,hv⟩ := isSome_iff_exists.mp (AList.lookup_isSome.mpr h)
    rw [AList.lookup_union_left h,hv,some_or]
  · rw [AList.lookup_union_right h,AList.lookup_eq_none.mpr h,none_or]

variable {fields : List String} {m : Metric}

/- The induction is on the metrics from the last one: the capture has the series already, or
no metric with a configured field has come. -/
theorem captured_cases {ms : List Metric} {name : String} {tags : StringMap String}
    (h : ∀ m∈ms, carries fields m → m.name=name ∧ ∀ k, m.tags.lookup k=tags.lookup k) :
    (captured fields ms).name=name ∧ (∀ k, (captured fields ms).tags.lookup k=tags.lookup k) ∨
      (∀ m∈ms, carries fields m=false) ∧ captured fields ms=⟨"",∅⟩ := by
  induction ms using List.reverseRecOn with
  | nil => exact .inr ⟨fun m hm => absurd hm not_mem_nil,rfl⟩
  | append_singleton ms m ih =>
    have hlast : captured fields (ms++[m])=capture fields (captured fields ms) m :=
      foldl_concat ..
    have hm:=h m (mem_append_right ms (mem_singleton_self m))
    have hinit:=ih fun x hx => h x (mem_append_left [m] hx)
    rw [hlast,capture]
    split
    next htaken =>
      obtain ⟨hname,htags⟩ := hm htaken.2
      refine .inl ⟨hname,fun k => ?_⟩
      show (m.tags ∪ (captured fields ms).tags).lookup k=tags.lookup k
      rw [lookup_union,htags k]
      rcases hinit with ⟨-,hsame⟩ | ⟨-,hempty⟩
      · rw [hsame k,Option.or_self]
      · rw [hempty]
        simp
    next hnot =>
      rcases hinit with hdone | ⟨hnone,hempty⟩
      · exact .inl hdone
      · have hcarries : carries fields m=false := by
          rw [hempty] at hnot
          simpa using hnot
        refine .inr ⟨fun x hx => ?_,hempty⟩
        rcases mem_append.mp hx with hx | hx
        · exact hnone x hx
        · rw [mem_singleton.mp hx]
          exact hcarries

theorem OneSeries.inSeries {ms : List Metric} (h : OneSeries fields ms) (hm : m∈ms) (hc : carries fields m) :
    inSeries (captured fields ms).name (captured fields ms).tags m := by
  have hsame : ∀ m' ∈ ms, carries fields m' = true →
      m'.name=m.name ∧ ∀ k, m'.tags.lookup k=m.tags.lookup k := by
    intro m' hm' hc'
    have hin:=of_decide_eq_true (h m hm m' hm' hc hc')
    exact ⟨hin.1,(sortedTags_eq_iff _ _).mp hin.2⟩
  rcases captured_cases hsame with ⟨hname,htags⟩ | ⟨hnone,-⟩
  · refine decide_eq_true ⟨hname.symm,?_⟩
    rw [sortedTags_eq_iff]
    exact fun k => (htags k).symm
  · rw [hnone m hm] at hc
    cases hc

theorem filterMap_filter_of {α β : Type} {g : α → Option β} {p : α → Bool} {l : List α}
    (h : ∀ x∈l, g x≠none → p x) : (l.filter p).filterMap g=l.filterMap g := by
  induction l with
  | nil => rfl
  | cons x l ih =>
    have hrest:=ih fun y hy => h y (mem_cons_of_mem x hy)
    by_cases hp : p x
    · rw [filter_cons_of_pos hp,filterMap_cons,filterMap_cons,hrest]
    · have hg : g x=none := by
        by_contra hne
        exact hp (h x mem_cons_self hne)
      rw [filter_cons_of_neg hp,filterMap_cons,hg,hrest]

theorem carries_of_lookup {fname : String} (hf : fname∈fields)
    (h : m.fields.lookup fname≠none) : carries fields m :=
  any_eq_true.mpr ⟨fname,hf,isSome_iff_ne_none.mpr h⟩

section
variable {fields : List String} {ms : List Metric} {fname : String}

theorem OneSeries.numbers {K : Type} (A : Numbers K) (h : OneSeries fields ms)
    (hnum : ∀ m∈ms, Numeric fields m) (hf : fname∈fields) :
    A.given fname (ms.filter (Collector.inSeries (captured fields ms).name
      (captured fields ms).tags))=A.numbers fname ms := by
  rw [← numbers_given A hf fun m hm => hnum m (mem_of_mem_filter hm)]
  refine filterMap_filter_of fun m hm hne => h.inSeries hm (carries_of_lookup hf ?_)
  intro hnone
  rw [Numbers.number,hnone] at hne
  exact hne rfl

theorem OneSeries.values (h : OneSeries fields ms) (hnum : ∀ m∈ms, Numeric fields m)
    (hf : fname∈fields) : given fname (ms.filter (Collector.inSeries (captured fields ms).name
      (captured fields ms).tags))=SumAggregator.values fname ms := by
  rw [← SumAggregator.values_given fields hf fun m hm => hnum m (mem_of_mem_filter hm)]
  refine filterMap_filter_of fun m hm hne => h.inSeries hm (carries_of_lookup hf ?_)
  intro hnone
  rw [SumAggregator.value,hnone] at hne
  exact hne rfl

end

section
variable {K : Type} (F : FloatArith) (A : Numbers K)

def sumMachine : Machine SumAggregator Metric (List Metric) where
  add := SumAggregator.add F
  push a := some (a,a.push)
  reset := SumAggregator.reset
def avgMachine : Machine (Aggregator (Averages K)) Metric (List (Aggregate K)) where
  add := Averages.add A
  push a := some (a,Averages.push A a)
  reset := Aggregator.reset .empty
def minmaxMachine : Machine (Aggregator (Extremes K)) Metric (List (Aggregate K)) where
  add := Extremes.add A
  push a := some (a,Extremes.push A a)
  reset := Aggregator.reset .empty
def percentileMachine : Machine (Percentile.PercentileAggregator K) Metric (List (Aggregate K)) where
  add := Percentile.add A
  push := Percentile.push A
  reset := Percentile.reset

end

structure SumAggregator.Holds (F : FloatArith) (a : SumAggregator) (ms : List Metric) : Prop where
  captured : (⟨a.name,a.tags⟩ : Captured)=captured a.fields ms
  sums : ∀ fname∈a.fields, a.sums.lookup fname=total F (values fname ms)

namespace SumAggregator
variable {F : FloatArith} {a : SumAggregator} (mf : StringMap FieldValue)

theorem addField_captured (a : SumAggregator) (f : String) :
    (addField F mf a f).name=a.name ∧ (addField F mf a f).tags=a.tags := by
  unfold addField
  split
  · split <;> exact ⟨rfl,rfl⟩
  · split <;> exact ⟨rfl,rfl⟩
  · exact ⟨rfl,rfl⟩

theorem foldl_addField_captured (fs : List String) (a : SumAggregator) :
    (fs.foldl (addField F mf) a).name=a.name ∧ (fs.foldl (addField F mf) a).tags=a.tags := by
  induction fs generalizing a with
  | nil => exact ⟨rfl,rfl⟩
  | cons f fs ih =>
    obtain ⟨hname,htags⟩ := ih (addField F mf a f)
    obtain ⟨hname',htags'⟩ := addField_captured (F := F) mf a f
    exact ⟨hname.trans hname',htags.trans htags'⟩

theorem add_captured (a : SumAggregator) (m : Metric) :
    (⟨(add F a m).name,(add F a m).tags⟩ : Captured) = Collector.capture a.fields ⟨a.name,a.tags⟩ m := by
  obtain ⟨hname,htags⟩ := foldl_addField_captured (F := F) m.fields a.fields a
  have hfields:=foldl_addField_fields F m.fields a.fields a
  unfold add capture Collector.capture carries
  rw [hname,htags,hfields]
  split
  · rfl
  · rw [hname,htags]

theorem Holds.add {ms : List Metric} (h : a.Holds F ms)
    (hnd : a.fields.Nodup) (m : Metric) : (a.add F m).Holds F (ms++[m]) := by
  have hfields:=add_fields F a m
  refine ⟨?_,fun fname hf => ?_⟩
  · rw [add_captured,h.captured,hfields]
    exact (foldl_concat ..).symm
  · rw [hfields] at hf
    have hsum:=foldl_add_sums F [m] a hnd hf
    rw [h.sums fname hf] at hsum
    refine hsum.trans ?_
    rw [total,total,← foldl_append,values,values,values,filterMap_append]

theorem new_holds (F : FloatArith) (fields : List String) : (new fields).Holds F [] :=
  ⟨rfl,fun _ _ => rfl⟩

theorem Holds.push {ms : List Metric} (h : a.Holds F ms) {out : Metric}
    (hout : out∈a.push) : out.name=a.name++"_sum" ∧ out.tags=a.tags ∧
      ∀ fname∈a.fields, out.fields.lookup fname=total F (values fname ms) := by
  unfold SumAggregator.push at hout
  split at hout
  · exact absurd hout not_mem_nil
  split at hout
  · exact absurd hout not_mem_nil
  cases mem_singleton.mp hout
  refine ⟨rfl,rfl,fun fname hf => ?_⟩
  show a.pushFields.lookup fname=_
  rw [pushFields_lookup a hf,h.sums fname hf]

end SumAggregator

theorem append_cancel {s t u : String} (h : s++u=t++u) : s=t := by
  have hlist:=congrArg String.toList h
  rw [String.toList_append,String.toList_append] at hlist
  exact String.toList_inj.mp (append_cancel_right hlist)
theorem min_ne_max (s t : String) : s++"_min"≠t++"_max" := by
  intro h
  have hlast:=congrArg (fun u : String => u.toList.getLast?) h
  simp at hlast

section
variable {K S T : Type} {A : Numbers K} {addValue : S → String → K → S} {keep : S → String → T}
  {R : T → List K → Prop} {fields : List String}

theorem Aggregator.pushes_spec {push : Aggregator S → List (Aggregate K)} {empty : S}
    (hk : Keeps addValue keep R) (hempty : ∀ fname, R (keep empty fname) []) (hnd : fields.Nodup)
    (calls : List (Call Metric)) :
    ∀ x∈(⟨Aggregator.add A addValue,fun a => some (a,push a),Aggregator.reset empty⟩ :
        Machine (Aggregator S) Metric (List (Aggregate K))).pushes (.new fields empty) [] calls,
      x.1∈sinceReset [] calls ∧
        ∃ a : Aggregator S, a.fields=fields ∧ a.Holds A keep R x.1 ∧ x.2=push a := by
  refine Machine.pushes_spec _
    (fun (a : Aggregator S) ms => a.fields=fields ∧ a.Holds A keep R ms)
    (fun ms outs => ∃ a : Aggregator S, a.fields=fields ∧ a.Holds A keep R ms ∧ outs=push a)
    ?_ ?_ ?_ ⟨rfl,Aggregator.new_holds A fields hempty⟩ calls
  · rintro a ms m ⟨hf,ha⟩
    exact ⟨hf,ha.add hk (hf ▸ hnd) m⟩
  · rintro a ms b outs ⟨hf,ha⟩ hpush
    cases hpush
    exact ⟨⟨hf,ha⟩,a,hf,ha,rfl⟩
  · rintro a ms ⟨hf,-⟩
    exact ⟨hf,Aggregator.new_holds A a.fields hempty⟩

end

section
variable {K : Type} {fields : List String} (hnd : fields.Nodup) {calls : List (Call Metric)}
  (hone : ∀ ms∈sinceReset [] calls, OneSeries fields ms)
  (hnum : ∀ ms∈sinceReset [] calls, ∀ m∈ms, Numeric fields m)

include hnd hone hnum

theorem sums_of_series (F : FloatArith) : ∀ x∈(sumMachine F).pushes (.new fields) [] calls, ∀ out∈x.2,
      ∀ name, out.name=name++"_sum" → ∀ fname∈fields, out.fields.lookup fname =
        SumAggregator.total F (given fname (x.1.filter (inSeries name out.tags))) := by
  intro x hx out hout name hname fname hf
  have hspec : ∀ x∈(sumMachine F).pushes (.new fields) [] calls, x.1∈sinceReset [] calls ∧
      ∃ a : SumAggregator, a.fields=fields ∧ a.Holds F x.1 ∧ x.2=a.push := by
    refine Machine.pushes_spec (sumMachine F)
      (fun (a : SumAggregator) ms => a.fields=fields ∧ a.Holds F ms)
      (fun ms outs => ∃ a : SumAggregator, a.fields=fields ∧ a.Holds F ms ∧ outs=a.push)
      ?_ ?_ ?_ ⟨rfl,SumAggregator.new_holds F fields⟩ calls
    · rintro a ms m ⟨hf,ha⟩
      exact ⟨(SumAggregator.add_fields F a m).trans hf,ha.add (hf ▸ hnd) m⟩
    · rintro a ms b outs ⟨hf,ha⟩ hpush
      cases hpush
      exact ⟨⟨hf,ha⟩,a,hf,ha,rfl⟩
    · rintro a ms ⟨hf,-⟩
      exact ⟨hf,SumAggregator.new_holds F a.fields⟩
  obtain ⟨hms,a,rfl,ha,hpush⟩ := hspec x hx
  rw [hpush] at hout
  obtain ⟨hname',htags,hsum⟩ := ha.push hout
  have hcaptured:=ha.captured
  rw [append_cancel (hname.symm.trans hname'),htags,hsum fname hf,← (hone _ hms).values (hnum _ hms) hf,
    ← hcaptured]

theorem avgs_of_series (A : Numbers K) :
    ∀ x∈(avgMachine A).pushes (.new fields .empty) [] calls, ∀ out∈x.2,
      ∀ name, out.name=name++"_avg" → ∀ fname∈fields, out.fields.lookup fname =
        Averages.mean A (A.given fname (x.1.filter (inSeries name out.tags))) := by
  intro x hx out hout name hname fname hf
  obtain ⟨hms,a,rfl,ha,hpush⟩ := Aggregator.pushes_spec (Averages.keeps A)
    (Averages.empty_sums A) hnd calls x hx
  rw [hpush] at hout
  obtain ⟨hname',htags,hmean⟩ := Averages.push_value A ha hout
  rw [append_cancel (hname.symm.trans hname'),htags,hmean fname hf,← (hone _ hms).numbers A (hnum _ hms) hf,
    ← ha.captured]

theorem extremes_of_series (A : Numbers K) :
    ∀ x∈(minmaxMachine A).pushes (.new fields .empty) [] calls, ∀ out∈x.2,
      (∀ name, out.name=name++"_min" → ∀ fname∈fields, out.fields.lookup fname =
        Extremes.minimum A (A.given fname (x.1.filter (inSeries name out.tags)))) ∧
      ∀ name, out.name=name++"_max" → ∀ fname∈fields, out.fields.lookup fname =
        Extremes.maximum A (A.given fname (x.1.filter (inSeries name out.tags))) := by
  intro x hx out hout
  obtain ⟨hms,a,rfl,ha,hpush⟩ := Aggregator.pushes_spec (Extremes.keeps A)
    (Extremes.empty_bounds A) hnd calls x hx
  rw [hpush] at hout
  have hseries : ∀ fname∈a.fields, A.given fname (x.1.filter (inSeries a.name a.tags)) =
      A.numbers fname x.1 := by
    intro fname hf
    rw [← (hone _ hms).numbers A (hnum _ hms) hf,← ha.captured]
  obtain ⟨htags,⟨hname',hmin⟩ | ⟨hname',hmax⟩⟩ := Extremes.push_value A ha hout
  · refine ⟨fun name hname fname hf => ?_,fun name hname => ?_⟩
    · rw [append_cancel (hname.symm.trans hname'),htags,hseries fname hf,hmin fname hf]
    · exact absurd (hname'.symm.trans hname) (min_ne_max _ _)
  · refine ⟨fun name hname => ?_,fun name hname fname hf => ?_⟩
    · exact absurd (hname.symm.trans hname') (min_ne_max _ _)
    · rw [append_cancel (hname.symm.trans hname'),htags,hseries fname hf,hmax fname hf]

theorem percentiles_of_series (A : Numbers K) (ps : List Percentile.Percent) :
    ∀ x∈(percentileMachine A).pushes (Percentile.new fields ps) [] calls, ∀ out∈x.2,
      ∀ k v, out.fields.lookup k=some v → ∃ fname∈fields, ∃ p∈ps, k=Percentile.key fname p ∧
          ∃ vals, vals.Perm (A.given fname (x.1.filter (inSeries out.name out.tags))) ∧
            Percentile.percentile A (A.sort vals) (A.ofFloat64 p.value)=some v := by
  intro x hx out hout k v hk
  have hspec : ∀ x∈(percentileMachine A).pushes (Percentile.new fields ps) [] calls,
      x.1∈sinceReset [] calls ∧ ∃ a b : Percentile.PercentileAggregator K, a.fields=fields ∧
        a.percentiles=ps ∧ a.Holds A Percentile.Values.of List.Perm x.1 ∧
        Percentile.push A a=some (b,x.2) := by
    refine Machine.pushes_spec (percentileMachine A)
      (fun (a : Percentile.PercentileAggregator K) ms => a.fields=fields ∧
        a.percentiles=ps ∧ a.Holds A Percentile.Values.of List.Perm ms)
      (fun ms outs => ∃ a b : Percentile.PercentileAggregator K, a.fields=fields ∧
        a.percentiles=ps ∧ a.Holds A Percentile.Values.of List.Perm ms ∧
        Percentile.push A a=some (b,outs))
      ?_ ?_ ?_ ⟨rfl,rfl,Percentile.new_holds A fields ps⟩ calls
    · rintro a ms m ⟨hf,hps,ha⟩
      exact ⟨hf,hps,ha.add Percentile.keeps (hf ▸ hnd) m⟩
    · rintro a ms b outs ⟨hf,hps,ha⟩ hpush
      obtain ⟨hf',hps',hb,-⟩ := Percentile.push_value ha hpush
      exact ⟨⟨hf'.trans hf,hps'.trans hps,hb⟩,a,b,hf,hps,ha,hpush⟩
    · rintro a ms ⟨hf,hps,-⟩
      exact ⟨hf,hps,Percentile.new_holds A a.fields a.percentiles⟩
  obtain ⟨hms,a,b,rfl,rfl,ha,hpush⟩ := hspec x hx
  obtain ⟨hname,htags,horigin⟩ := (Percentile.push_value ha hpush).2.2.2 out hout
  obtain ⟨fname,hf,p,hp,hkey,vals,hvals,hval⟩ := horigin k v hk
  refine ⟨fname,hf,p,hp,hkey,vals,?_,hval⟩
  rw [hname,htags,ha.captured,(hone _ hms).numbers A (hnum _ hms) hf]
  exact hvals

end

/-- If only one series has had a configured field since the last reset, and only with values that are a
`float64` or an `int64`, what is pushed under a name and tags is computed from all values of the metrics with
this name and these tags. -/
theorem aggregates_of_one_series {K : Type} (F : FloatArith) (A : Numbers K) (fields : List String)
    (ps : List Percentile.Percent) (hnd : fields.Nodup) (calls : List (Call Metric))
    (hone : ∀ ms∈sinceReset [] calls, OneSeries fields ms)
    (hnum : ∀ ms∈sinceReset [] calls, ∀ m∈ms, Numeric fields m=true) :
    (∀ x∈(sumMachine F).pushes (.new fields) [] calls, ∀ out∈x.2,
      ∀ name, out.name=name++"_sum" → ∀ fname∈fields, out.fields.lookup fname =
        SumAggregator.total F (given fname (x.1.filter (inSeries name out.tags)))) ∧
    (∀ x∈(avgMachine A).pushes (.new fields .empty) [] calls, ∀ out∈x.2,
      ∀ name, out.name=name++"_avg" → ∀ fname∈fields, out.fields.lookup fname =
        Averages.mean A (A.given fname (x.1.filter (inSeries name out.tags)))) ∧
    (∀ x∈(minmaxMachine A).pushes (.new fields .empty) [] calls, ∀ out∈x.2,
      (∀ name, out.name=name++"_min" → ∀ fname∈fields, out.fields.lookup fname =
        Extremes.minimum A (A.given fname (x.1.filter (inSeries name out.tags)))) ∧
      ∀ name, out.name=name++"_max" → ∀ fname∈fields, out.fields.lookup fname =
        Extremes.maximum A (A.given fname (x.1.filter (inSeries name out.tags)))) ∧
    ∀ x∈(percentileMachine A).pushes (Percentile.new fields ps) [] calls, ∀ out∈x.2,
      ∀ k v, out.fields.lookup k=some v → ∃ fname∈fields, ∃ p∈ps, k=Percentile.key fname p ∧
          ∃ vals, vals.Perm (A.given fname (x.1.filter (inSeries out.name out.tags))) ∧
            Percentile.percentile A (A.sort vals) (A.ofFloat64 p.value)=some v :=
  ⟨sums_of_series hnd hone hnum F,avgs_of_series hnd hone hnum A,extremes_of_series hnd hone hnum A,
    percentiles_of_series hnd hone hnum A ps⟩

def floatArith : FloatArith := ⟨Float64.add,fun n => .ofInt n.toInt⟩
def hostLoad (host : String) (n : Int64) : Metric :=
  ⟨"cpu",(∅ : StringMap String).insert "host" host,
    (∅ : StringMap FieldValue).insert "load" (.int64 n),.gauge⟩
def hostAfterHost : List (Call Metric) :=
  [.add (hostLoad "a" 10),.add (hostLoad "a" 30),.push,.reset,.add (hostLoad "b" 50),.push]
def shown {V : Type} (host : StringMap String) (fields : StringMap V) (key : String) :
    Option String × Option V := (host.lookup "host",fields.lookup key)

theorem aggregates_of_hostAfterHost :
    (((sumMachine floatArith).pushes (.new ["load"]) [] hostAfterHost).map fun x =>
      x.2.map fun out => shown out.tags out.fields "load") =
        [[(some "a",some (.int64 40))],[(some "b",some (.int64 50))]] ∧
    ∀ x∈(avgMachine float64).pushes (.new ["load"] .empty) [] hostAfterHost, ∀ out∈x.2,
      ∀ name, out.name=name++"_avg" → ∀ fname∈["load"], out.fields.lookup fname =
        Averages.mean float64 (float64.given fname (x.1.filter (inSeries name out.tags))) := by
  refine ⟨by decide +kernel,?_⟩
  refine (aggregates_of_one_series floatArith float64 ["load"] Percentile.defaultPercentiles
    (by decide) hostAfterHost ?_ (by decide)).2.1
  intro ms hms
  have hwindows : sinceReset [] hostAfterHost =
      [[hostLoad "a" 10,hostLoad "a" 30],[hostLoad "b" 50]] := rfl
  rw [hwindows] at hms
  have hall : ∀ n n' : Int64, ∀ host, inSeries (hostLoad host n).name (hostLoad host n).tags
      (hostLoad host n')=true := fun n n' host => decide_eq_true ⟨rfl,rfl⟩
  simp only [mem_cons,not_mem_nil,or_false] at hms
  rcases hms with rfl | rfl
  · intro m hm m' hm' _ _
    simp only [mem_cons,not_mem_nil,or_false] at hm hm'
    rcases hm with rfl | rfl <;> rcases hm' with rfl | rfl <;> exact hall _ _ _
  · intro m hm m' hm' _ _
    simp only [mem_cons,not_mem_nil,or_false] at hm hm'
    rw [hm,hm']
    exact hall _ _ _

def hostsTogether : List (Call Metric) := [.add (hostLoad "a" 10),.add (hostLoad "b" 30),.push]

theorem aggregates_mix_hosts :
    (((sumMachine floatArith).pushes (.new ["load"]) [] hostsTogether).map fun x =>
      x.2.map fun out => shown out.tags out.fields "load")=[[(some "a",some (.int64 40))]] ∧
    (((avgMachine float64).pushes (.new ["load"] .empty) [] hostsTogether).map fun x =>
      x.2.map fun out => shown out.tags out.fields "load") = [[(some "a",some (.ofInt 20))]] ∧
    (((minmaxMachine float64).pushes (.new ["load"] .empty) [] hostsTogether).map fun x =>
      x.2.map fun out => shown out.tags out.fields "load") =
        [[(some "a",some (.ofInt 10)),(some "a",some (.ofInt 30))]] ∧
    (((percentileMachine float64).pushes (Percentile.new ["load"] Percentile.defaultPercentiles) []
      hostsTogether).map fun x => x.2.map fun out => shown out.tags out.fields "load_p50") =
        [[(some "a",some (.ofInt 20))]] ∧
    float64.given "load" ([hostLoad "a" 10,hostLoad "b" 30].filter
      (inSeries "cpu" (hostLoad "a" 10).tags))=[.ofInt 10] := by decide +kernel

end OpsAgent.Collector
