import OpsAgent.Alerting.Lifecycle

/-!
# The value map and the series of a batch (`alerting/engine.go`)
-/

namespace OpsAgent.Alerting
open OpsAgent.Collector List
open Lib.GoValue
open Lib.GoTime

def samplesOf (key : String) (m : Metric) : List Float64 :=
  m.fields.entries.filterMap fun f =>
    if m.name++"_"++f.1=key then fieldNumber f.2 else none
def samples (key : String) (metrics : List Metric) : List Float64 := metrics.flatMap (samplesOf key)

theorem lookup_addFields (values : StringMap Float64) (m : Metric) (key : String) :
    (addFields values m).lookup key=(samplesOf key m).getLast?.or (values.lookup key) := by
  unfold addFields samplesOf
  generalize m.fields.entries=fs
  induction fs generalizing values with
  | nil => rfl
  | cons f fs ih =>
    rw [foldl_cons,ih,filterMap_cons]
    by_cases hkey : m.name++"_"++f.1=key
    · subst hkey
      rw [if_pos rfl]
      cases fieldNumber f.2 with
      | none => rfl
      | some x =>
        simp only [AList.lookup_insert,getLast?_cons]
        cases getLast? _ <;> rfl
    · rw [if_neg hkey]
      cases fieldNumber f.2 with
      | none => rfl
      | some x => simp only [AList.lookup_insert_ne (Ne.symm hkey)]

theorem lookup_valueMap (metrics : List Metric) (key : String) :
    (valueMap metrics).lookup key=(samples key metrics).getLast? := by
  induction metrics using List.reverseRecOn with
  | nil => rfl
  | append_singleton ms m ih =>
    have hmap : valueMap (ms++[m])=addFields (valueMap ms) m := by simp [valueMap]
    rw [hmap,lookup_addFields,ih,samples,samples,flatMap_append,flatMap_singleton,getLast?_append]

variable {x : Float64} {r : EvaluatedRule}
  {α : Type}
  {key : String} {metrics : List Metric}

theorem samplesOf_eq_singleton {m : Metric} (hx : x∈samplesOf key m) : samplesOf key m=[x] := by
  have hnodup:=m.fields.nodupKeys
  unfold samplesOf at hx ⊢
  revert hx hnodup
  generalize m.fields.entries=fs
  intro hx hnodup
  induction fs with
  | nil => exact absurd hx not_mem_nil
  | cons f fs ih =>
    obtain ⟨hfresh,hrest⟩ := nodupKeys_cons.mp hnodup
    rw [filterMap_cons] at hx ⊢
    by_cases hkey : m.name++"_"++f.1=key
    · have hnone : (fs.filterMap fun f =>
          if m.name++"_"++f.1=key then fieldNumber f.2 else none)=[] := by
        rw [filterMap_eq_nil_iff]
        intro g hg
        refine if_neg fun hgkey => hfresh ?_
        have hsame : f.1=g.1 := by
          rw [← hgkey] at hkey
          exact String.append_right_inj _ |>.mp hkey
        rw [hsame]
        exact mem_keys_of_mem hg
      rw [if_pos hkey,hnone] at hx ⊢
      cases hnum : fieldNumber f.2 with
      | none => simp [hnum] at hx
      | some y =>
        simp only [hnum,mem_singleton] at hx
        simp [hx]
    · rw [if_neg hkey] at hx ⊢
      exact ih hx hrest

theorem exists_perm_lookup (hx : x∈samples key metrics) :
    ∃ metrics' : List Metric, metrics'.Perm metrics ∧ (valueMap metrics').lookup key=some x := by
  obtain ⟨m,hm,hxm⟩ := mem_flatMap.mp hx
  obtain ⟨before,after,rfl⟩ := append_of_mem hm
  refine ⟨before++after++[m],?_,?_⟩
  · have hlast : (before++(after++[m])).Perm (before++m::after) :=
      (perm_append_singleton m after).append_left before
    rwa [← append_assoc] at hlast
  · rw [lookup_valueMap,samples,flatMap_append,flatMap_singleton,
      samplesOf_eq_singleton hxm,getLast?_append]
    rfl

theorem getLast?_eq_of_perm {l l' : List α} (hperm : l'.Perm l)
    (hsame : ∀ x∈l, ∀ y∈l, x=y) : l'.getLast?=l.getLast? := by
  cases hl : l.getLast? with
  | none =>
    rw [getLast?_eq_none_iff] at hl ⊢
    exact perm_nil.mp (hl ▸ hperm)
  | some x =>
    cases hl' : l'.getLast? with
    | none =>
      rw [getLast?_eq_none_iff.mp hl',nil_perm] at hperm
      rw [hperm] at hl
      cases hl
    | some y =>
      have hy : y∈l := hperm.mem_iff.mp (mem_of_getLast? hl')
      rw [hsame y hy x (mem_of_getLast? hl)]

theorem any_getLast? {l : List α} (hsame : ∀ x∈l, ∀ y∈l, x=y) (p : α → Bool) :
    l.getLast?.any p=l.any p := by
  cases hl : l.getLast? with
  | none => rw [getLast?_eq_none_iff.mp hl]; rfl
  | some x =>
    have hx:=mem_of_getLast? hl
    rw [Option.any_some,Bool.eq_iff_iff,any_eq_true]
    constructor
    · intro hp
      exact ⟨x,hx,hp⟩
    · intro ⟨y,hy,hp⟩
      rwa [hsame x hx y hy]

theorem evaluateRule_congr {values values' : StringMap Float64}
    (h : values.lookup r.condition.metric=values'.lookup r.condition.metric) (now : Time) :
    evaluateRule values now r=evaluateRule values' now r := by rw [evaluateRule,evaluateRule,h]
theorem conditionMet_currentValue (r : EvaluatedRule) (met : Bool) (now : Time) :
    (r.conditionMet met now).currentValue=r.currentValue := by
  unfold EvaluatedRule.conditionMet
  split <;> split <;> first | rfl | (split <;> rfl)

theorem evaluateRule_currentValue {values : StringMap Float64}
    (h : values.lookup r.condition.metric=some x) (now : Time) :
    (evaluateRule values now r).1.currentValue=x := by
  simp only [evaluateRule,h]
  split
  · exact conditionMet_currentValue _ _ _
  · exact conditionMet_currentValue _ _ _

def OneValue (key : String) (metrics : List Metric) : Prop :=
  ∀ x∈samples key metrics, ∀ y∈samples key metrics, x=y

theorem oneValue_of_evaluate {e : Engine} {now : Time}
    (h : ∀ metrics' : List Metric, metrics'.Perm metrics →
      e.evaluate metrics' now=e.evaluate metrics now) (hr : r∈e.rules) : OneValue r.condition.metric metrics := by
  intro x hx y hy
  obtain ⟨msx,hpermx,hlookx⟩ := exists_perm_lookup hx
  obtain ⟨msy,hpermy,hlooky⟩ := exists_perm_lookup hy
  have hrules:=congrArg (fun ev => ev.engine.rules) ((h msx hpermx).trans (h msy hpermy).symm)
  simp only [Engine.evaluate,map_map,map_inj_left,Function.comp_apply] at hrules
  rw [← evaluateRule_currentValue hlookx now,hrules r hr,evaluateRule_currentValue hlooky now]

/-- The order of a batch does not matter, and one series is enough to meet a condition, exactly if all
series under the key of a rule have the same number. -/
theorem evaluate_perm_iff (e : Engine) (metrics : List Metric) (now : Time) :
    ((∀ metrics' : List Metric, metrics'.Perm metrics → e.evaluate metrics' now=e.evaluate metrics now) ∧
      ∀ r∈e.rules, holds r.condition ⟨metrics,now⟩ =
        (samples r.condition.metric metrics).any r.condition.evaluate) ↔
    ∀ r∈e.rules, OneValue r.condition.metric metrics := by
  constructor
  · rintro ⟨hperm,-⟩ r hr
    exact oneValue_of_evaluate hperm hr
  · intro hone
    refine ⟨fun metrics' hperm => ?_,fun r hr => ?_⟩
    · have hrule : ∀ r∈e.rules,
          evaluateRule (valueMap metrics') now r=evaluateRule (valueMap metrics) now r := by
        intro r hr
        refine evaluateRule_congr ?_ now
        rw [lookup_valueMap,lookup_valueMap]
        exact getLast?_eq_of_perm (hperm.flatMap_right _) (hone r hr)
      rw [Engine.evaluate,Engine.evaluate,map_congr_left hrule]
    · rw [holds,lookup_valueMap]
      exact any_getLast? (hone r hr) _

def hostCpu (host : String) (percent : Float64) : Metric :=
  ⟨"cpu",(∅ : StringMap String).insert "host" host,
    (∅ : StringMap FieldValue).insert "usage_percent" (.float64 percent),.gauge⟩
def busyHost : Metric := hostCpu "a" ⟨0x4056800000000000#64⟩
def idleHost : Metric := hostCpu "b" ⟨0x4024000000000000#64⟩

theorem evaluate_depends_on_order : [busyHost,idleHost].Perm [idleHost,busyHost] ∧
    (samples "cpu_usage_percent" [busyHost,idleHost]).any (cpuWatch "").condition.evaluate=true ∧
    holds (cpuWatch "").condition ⟨[busyHost,idleHost],0⟩=false ∧
    ((⟨[cpuWatch ""],[]⟩ : Engine).evaluate [busyHost,idleHost] 0).alerts=[] ∧
    ((⟨[cpuWatch ""],[]⟩ : Engine).evaluate [idleHost,busyHost] 0).alerts.length=1 :=
  ⟨.swap _ _ _,rfl,rfl,rfl,rfl⟩

end OpsAgent.Alerting
