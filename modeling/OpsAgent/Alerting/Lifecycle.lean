import OpsAgent.Alerting.Engine
import OpsAgent.Lib.Streaks

/-!
# Runs of the alerting engine
-/

namespace OpsAgent.Alerting
open OpsAgent.Collector List Option Bool Engine EvaluatedRule
open Lib.GoValue
open Lib.GoTime
open Lib.Streaks

structure Call where
  metrics : List Metric
  now : Time

def Engine.run (e : Engine) (calls : List Call) : Engine :=
  calls.foldl (fun e c => (e.evaluate c.metrics c.now).engine) e
def EvaluatedRule.after (r : EvaluatedRule) (c : Call) : EvaluatedRule :=
  (evaluateRule (valueMap c.metrics) c.now r).1
def Engine.raised (e : Engine) (i : Nat) (c : Call) : Option Alert :=
  e.rules[i]?.bind fun r => (evaluateRule (valueMap c.metrics) c.now r).2

theorem filterMap_eq_range {α β : Type} (l : List α) (f : α → Option β) :
    l.filterMap f=(range l.length).filterMap fun i => l[i]?.bind f := by
  induction l with
  | nil => rfl
  | cons a l ih =>
    rw [length_cons,range_succ_eq_map,filterMap_cons,filterMap_cons,filterMap_map,ih]
    rfl

theorem Engine.evaluate_alerts (e : Engine) (c : Call) : (e.evaluate c.metrics c.now).alerts =
      (range e.rules.length).filterMap fun i => e.raised i c := by
  simp only [Engine.evaluate,filterMap_map]
  exact filterMap_eq_range _ _

theorem Engine.run_rules (e : Engine) (calls : List Call) :
    (e.run calls).rules=e.rules.map fun r => calls.foldl EvaluatedRule.after r := by
  induction calls generalizing e with
  | nil => simp [Engine.run]
  | cons c calls ih =>
    have hstep : (e.run (c::calls)).rules=((e.evaluate c.metrics c.now).engine.run calls).rules :=
      rfl
    rw [hstep,ih]
    simp [Engine.evaluate,EvaluatedRule.after,Function.comp_def]

variable {r : EvaluatedRule} {c : Call}

theorem Engine.run_rule {e : Engine} {i : Nat} (hr : e.rules[i]?=some r)
    (calls : List Call) : (e.run calls).rules[i]?=some (calls.foldl EvaluatedRule.after r) := by
  rw [run_rules,getElem?_map,hr,map_some]

def carries (cond : AlertCondition) (c : Call) : Bool :=
  ((valueMap c.metrics).lookup cond.metric).isSome
def holds (cond : AlertCondition) (c : Call) : Bool :=
  ((valueMap c.metrics).lookup cond.metric).any cond.evaluate

@[simp] theorem conditionMet_condition (r : EvaluatedRule) (met : Bool) (now : Time) :
    (r.conditionMet met now).condition=r.condition := by
  unfold EvaluatedRule.conditionMet
  split <;> split <;> first | rfl | (split <;> rfl)
@[simp] theorem conditionMet_duration (r : EvaluatedRule) (met : Bool) (now : Time) :
    (r.conditionMet met now).duration=r.duration := by
  unfold EvaluatedRule.conditionMet
  split <;> split <;> first | rfl | (split <;> rfl)

theorem conditionMet_false_state (r : EvaluatedRule) (now : Time) :
    (r.conditionMet false now).state=.ok := by
  unfold EvaluatedRule.conditionMet
  split
  next h => exact h
  next => rfl
  next => rfl

theorem EvaluatedRule.after_of_not_carries
    (h : carries r.condition c=false) : r.after c=r.conditionMet false c.now := by
  have hnone : (valueMap c.metrics).lookup r.condition.metric=none := by simpa [carries] using h
  simp only [EvaluatedRule.after,evaluateRule,hnone]

theorem EvaluatedRule.after_eq (r : EvaluatedRule) (c : Call) :
    ∃ v, r.after c = {r with currentValue := v}.conditionMet (holds r.condition c) c.now := by
  cases hv : (valueMap c.metrics).lookup r.condition.metric with
  | none => exact ⟨r.currentValue,by simp [EvaluatedRule.after,evaluateRule,holds,hv]⟩
  | some v =>
    refine ⟨v,?_⟩
    simp only [EvaluatedRule.after,evaluateRule,holds,hv,any_some]
    split <;> rfl

theorem EvaluatedRule.after_condition (r : EvaluatedRule) (c : Call) :
    (r.after c).condition=r.condition := by
  obtain ⟨v,hv⟩ := r.after_eq c
  rw [hv,conditionMet_condition]
theorem EvaluatedRule.after_duration (r : EvaluatedRule) (c : Call) :
    (r.after c).duration=r.duration := by
  obtain ⟨v,hv⟩ := r.after_eq c
  rw [hv,conditionMet_duration]

theorem foldl_after_condition (r : EvaluatedRule) (calls : List Call) :
    (calls.foldl EvaluatedRule.after r).condition=r.condition := by
  induction calls generalizing r with
  | nil => rfl
  | cons c calls ih => rw [foldl_cons,ih,r.after_condition]

theorem foldl_after_duration (r : EvaluatedRule) (calls : List Call) :
    (calls.foldl EvaluatedRule.after r).duration=r.duration := by
  induction calls generalizing r with
  | nil => rfl
  | cons c calls ih => rw [foldl_cons,ih,r.after_duration]

theorem evaluateRule_alert (r : EvaluatedRule) (c : Call) :
    (evaluateRule (valueMap c.metrics) c.now r).2.isSome ↔
      (r.after c).state=.firing ∧ r.state ≠ .firing := by
  cases hv : (valueMap c.metrics).lookup r.condition.metric with
  | none => simp [EvaluatedRule.after,evaluateRule,hv,conditionMet_false_state]
  | some v =>
    simp only [EvaluatedRule.after,evaluateRule,hv]
    split
    next h => exact iff_of_true rfl h
    next h => exact iff_of_false Bool.false_ne_true h

section
variable {p : ℕ → Bool} {t : ℕ → Time} {r : EvaluatedRule} {k : ℕ}

def Stage (p : ℕ → Bool) (t : ℕ → Time) (r : EvaluatedRule) (k : ℕ) : Prop :=
  match r.state with
  | .ok => p k=false
  | .pending => ∃ j, Streak p j k ∧ r.triggeredAt=t j ∧ t k-t j<r.duration.toInt
  | .firing => Long p t r.duration.toInt k

theorem stage_of_ok (hok : r.state=.ok) (hd : 0≤r.duration.toInt)
    (hstarts : ∀ i, k=i+1 → p i=false) : Stage p t (r.conditionMet (p k) (t k)) k := by
  rw [EvaluatedRule.conditionMet,hok]
  cases hp : p k with
  | false => simpa [Stage,hok] using hp
  | true =>
    have hbegin:=Streak.begin hp hstarts
    by_cases hzero : r.duration=0
    · simp only [if_true,if_pos hzero,Stage]
      exact ⟨k,hbegin,by rw [hzero,Int64.toInt_zero]; omega⟩
    · simp only [if_true,if_neg hzero,Stage]
      have hne : r.duration.toInt≠0 := fun h => hzero (Int64.toInt_inj.mp h)
      refine ⟨k,hbegin,rfl,?_⟩
      rw [Int.sub_self]
      exact lt_of_le_of_ne hd hne.symm

theorem stage_succ (hd : 0≤r.duration.toInt) (ht : Monotone t) (h : Stage p t r k) :
    Stage p t (r.conditionMet (p (k+1)) (t (k+1))) (k+1) := by
  cases hp : p (k+1) with
  | false =>
    have hstate:=conditionMet_false_state r (t (k+1))
    simpa only [Stage,hstate] using hp
  | true =>
    cases hstate : r.state with
    | ok =>
      rw [← hp]
      refine stage_of_ok hstate hd ?_
      intro i hi
      rw [← Nat.succ.inj hi]
      simpa only [Stage,hstate] using h
    | pending =>
      obtain ⟨j,hj,htrig,-⟩ : ∃ j, Streak p j k ∧ r.triggeredAt=t j ∧
          t k-t j<r.duration.toInt := by simpa only [Stage,hstate] using h
      have hextend:=hj.extend hp
      rw [EvaluatedRule.conditionMet,hstate]
      simp only [Bool.not_true,false_eq_true,if_false]
      split
      next hreached =>
        rw [htrig,le_sub_iff hd] at hreached
        exact ⟨j,hextend,hreached⟩
      next hshort =>
        rw [htrig,le_sub_iff hd] at hshort
        simp only [Stage,hstate]
        exact ⟨j,hextend,htrig,Int.not_le.mp hshort⟩
    | firing =>
      have hlong : Long p t r.duration.toInt k := by simpa only [Stage,hstate] using h
      rw [EvaluatedRule.conditionMet,hstate]
      simp only [Bool.not_true,false_eq_true,if_false,Stage,hstate]
      exact hlong.extend ht hp

theorem Stage.firing_iff (h : Stage p t r k) : r.state=.firing ↔ Long p t r.duration.toInt k := by
  cases hstate : r.state with
  | ok =>
    have hp : p k=false := by simpa only [Stage,hstate] using h
    refine iff_of_false (fun h => by cases h) fun hlong => ?_
    cases hlong.last.symm.trans hp
  | pending =>
    obtain ⟨j,hj,-,hshort⟩ : ∃ j, Streak p j k ∧ r.triggeredAt=t j ∧
        t k-t j<r.duration.toInt := by simpa only [Stage,hstate] using h
    refine iff_of_false (fun h => by cases h) fun hlong => ?_
    exact absurd ((Long.iff_of_streak hj).mp hlong) (Int.not_le.mpr hshort)
  | firing =>
    have hlong : Long p t r.duration.toInt k := by simpa only [Stage,hstate] using h
    exact iff_of_true rfl hlong

end

def Engine.runTo (e : Engine) (calls : ℕ → Call) (n : ℕ) : Engine := e.run ((range n).map calls)

section
variable {e : Engine} {i : ℕ} {r : EvaluatedRule} {calls : ℕ → Call}
  (hok : r.state=.ok) (hd : 0≤r.duration.toInt) (ht : Monotone fun n => (calls n).now)

def EvaluatedRule.runTo (r : EvaluatedRule) (calls : ℕ → Call) (n : ℕ) : EvaluatedRule :=
  ((range n).map calls).foldl EvaluatedRule.after r

theorem EvaluatedRule.runTo_succ (r : EvaluatedRule) (calls : ℕ → Call) (n : ℕ) :
    r.runTo calls (n+1)=(r.runTo calls n).after (calls n) := by
  simp [EvaluatedRule.runTo,range_succ]

include hok hd ht

theorem stage_runTo (k : ℕ) : Stage (fun n => holds r.condition (calls n)) (fun n => (calls n).now)
      (r.runTo calls (k+1)) k := by
  induction k with
  | zero =>
    obtain ⟨v,hv⟩ := r.after_eq (calls 0)
    rw [r.runTo_succ]
    change Stage _ _ (r.after (calls 0)) 0
    rw [hv]
    exact stage_of_ok (r := {r with currentValue := v}) hok hd (by simp)
  | succ k ih =>
    obtain ⟨v,hv⟩ := (r.runTo calls (k+1)).after_eq (calls (k+1))
    have hcond : (r.runTo calls (k+1)).condition=r.condition := foldl_after_condition _ _
    have hdur : (r.runTo calls (k+1)).duration=r.duration := foldl_after_duration _ _
    rw [r.runTo_succ,hv,hcond]
    have ih' : Stage (fun n => holds r.condition (calls n)) (fun n => (calls n).now)
        {r.runTo calls (k+1) with currentValue := v} k := ih
    exact stage_succ (hdur ▸ hd) ht ih'

theorem firing_iff_long (k : ℕ) : (r.runTo calls (k+1)).state=.firing ↔
      Long (fun n => holds r.condition (calls n)) (fun n => (calls n).now) r.duration.toInt k := by
  have hdur : (r.runTo calls (k+1)).duration=r.duration := foldl_after_duration _ _
  rw [(stage_runTo hok hd ht k).firing_iff,hdur]

theorem alert_iff_reaches (k : ℕ) :
    (evaluateRule (valueMap (calls k).metrics) (calls k).now (r.runTo calls k)).2.isSome ↔
      ∃ j, Reaches (fun n => holds r.condition (calls n)) (fun n => (calls n).now)
        r.duration.toInt j k := by
  rw [evaluateRule_alert,← r.runTo_succ,firing_iff_long hok hd ht,exists_reaches_iff ht]
  refine and_congr_right fun _ => ?_
  cases k with
  | zero =>
    have hstart : (r.runTo calls 0).state=.ok := hok
    simp [hstart]
  | succ k =>
    simp only [Nat.succ.injEq,forall_eq',ne_eq]
    exact not_congr (firing_iff_long hok hd ht k)

end

/-- A rule fires at the end of a long streak, and raises one alert per long streak. -/
theorem firing_iff_streak (e : Engine) (i : ℕ) (r : EvaluatedRule) (calls : ℕ → Call)
    (hr : e.rules[i]?=some r) (hok : r.state=.ok) (hd : 0≤r.duration.toInt)
    (ht : Monotone fun n => (calls n).now) (k : ℕ) :
    let p n := holds r.condition (calls n)
    let t n := (calls n).now
    let raises n := ((e.runTo calls n).raised i (calls n)).isSome=true
    ((e.runTo calls (k+1)).rules[i]?.map EvaluatedRule.state=some .firing ↔
      ∃ j, Streak p j k ∧ r.duration.toInt≤t k-t j) ∧
    (raises k ↔ ∃ j, Reaches p t r.duration.toInt j k) ∧
    (∀ j, Streak p j k → r.duration.toInt≤t k-t j → ∃! m, (j ≤ m ∧ m≤k) ∧ raises m) ∧
    ((e.runTo calls k).evaluate (calls k).metrics (calls k).now).alerts =
      (List.range e.rules.length).filterMap fun i => (e.runTo calls k).raised i (calls k) := by
  intro p t raises
  have hrule : ∀ n, (e.runTo calls n).rules[i]?=some (r.runTo calls n) :=
    fun n => run_rule hr _
  have hraises : ∀ n, raises n ↔ ∃ j, Reaches p t r.duration.toInt j n := by
    intro n
    simp only [raises,Engine.raised,hrule,bind_some]
    exact alert_iff_reaches hok hd ht n
  have hlength : (e.runTo calls k).rules.length=e.rules.length := by
    rw [Engine.runTo,run_rules,length_map]
  refine ⟨?_,hraises k,?_,?_⟩
  · rw [hrule,map_some,some.injEq]
    exact firing_iff_long hok hd ht k
  · intro j hj hlong
    simp only [hraises]
    exact existsUnique_reaches hj ⟨j,hj,hlong⟩
  · rw [evaluate_alerts,hlength]

def cpuBatch (percent : Float64) : List Metric :=
  [⟨"cpu",∅,(∅ : StringMap FieldValue).insert "usage_percent" (.float64 percent),.gauge⟩]
def cpuWatch (for_ : String) : EvaluatedRule :=
  newRule ⟨"cpu","cpu_usage_percent > 80","critical",for_⟩
    ⟨"cpu_usage_percent",">",⟨0x4054000000000000#64⟩⟩
def busyCall (n : ℕ) : Call := ⟨cpuBatch ⟨0x4056800000000000#64⟩,1000000000*n⟩

theorem cpuWatch_fires :
    ((⟨[cpuWatch "2s"],[]⟩ : Engine).runTo busyCall 3).rules[0]?.map EvaluatedRule.state =
      some .firing := by
  have hmono : Monotone fun n => (busyCall n).now := by
    intro m n hmn
    change (1000000000*m : ℤ)≤1000000000*n
    omega
  have hstreak : Streak (fun n => holds (cpuWatch "2s").condition (busyCall n)) 0 2 :=
    ⟨by decide,fun _ _ _ => rfl,fun i hi => by cases hi⟩
  exact (firing_iff_streak ⟨[cpuWatch "2s"],[]⟩ 0 (cpuWatch "2s") busyCall rfl rfl (by decide)
    hmono 2).1.mpr ⟨0,hstreak,by decide⟩

inductive Event where
  | raised (time : Time) (alert : Alert)
  | resolved (time : Time)

def EvaluatedRule.events (r : EvaluatedRule) (c : Call) : List Event :=
  ((evaluateRule (valueMap c.metrics) c.now r).2.map (Event.raised c.now)).toList ++
    if r.state=.firing ∧ (r.after c).state=.ok then [.resolved c.now] else []
def Engine.events (e : Engine) (i : Nat) : List Call → List Event
  | [] => []
  | c::calls => (e.rules[i]?.map fun r => r.events c).getD [] ++
      (e.evaluate c.metrics c.now).engine.events i calls
def EvaluatedRule.runEvents (r : EvaluatedRule) : List Call → List Event
  | [] => []
  | c::calls => r.events c++(r.after c).runEvents calls

theorem Engine.events_eq {e : Engine} {i : Nat} (hr : e.rules[i]?=some r)
    (calls : List Call) : e.events i calls=r.runEvents calls := by
  induction calls generalizing e r with
  | nil => rfl
  | cons c calls ih =>
    have hafter : (e.evaluate c.metrics c.now).engine.rules[i]?=some (r.after c) :=
      run_rule hr [c]
    rw [Engine.events,EvaluatedRule.runEvents,hr,ih hafter]
    rfl

theorem after_eq_self_iff (h : carries r.condition c=false) : r.after c=r ↔ r.state=.ok := by
  rw [after_of_not_carries h]
  constructor
  · intro heq
    rw [← heq]
    exact conditionMet_false_state r c.now
  · intro hok
    simp [EvaluatedRule.conditionMet,hok]

theorem events_of_ok (h : carries r.condition c=false) (hok : r.state=.ok) : r.events c=[] := by
  have hnone : (valueMap c.metrics).lookup r.condition.metric=none := by simpa [carries] using h
  simp [EvaluatedRule.events,evaluateRule,hnone,hok]

theorem runEvents_filter {calls : List Call}
    (h : ∀ pre c post, calls=pre++c::post → carries r.condition c=false →
      (pre.foldl EvaluatedRule.after r).state=.ok) :
    r.runEvents calls=r.runEvents (calls.filter (carries r.condition)) := by
  induction calls generalizing r with
  | nil => rfl
  | cons c calls ih =>
    have htail : ∀ pre c' post, calls=pre++c' :: post →
        carries (r.after c).condition c' = false →
        (pre.foldl EvaluatedRule.after (r.after c)).state=.ok := by
      intro pre c' post hcalls hc'
      rw [r.after_condition] at hc'
      exact h (c::pre) c' post (by rw [hcalls,cons_append]) hc'
    have hrest:=ih htail
    rw [r.after_condition] at hrest
    rw [EvaluatedRule.runEvents,hrest]
    cases hc : carries r.condition c with
    | true => rw [filter_cons_of_pos hc,EvaluatedRule.runEvents]
    | false =>
      have hok : r.state=.ok := h [] c calls rfl hc
      rw [filter_cons_of_neg (by simp [hc]),events_of_ok hc hok,(after_eq_self_iff hc).mpr hok,
        nil_append]

/-- Batches without the metric of a rule have no effect on it exactly when each finds it in the state `ok`. -/
theorem other_batches_ignored_iff (e : Engine) (i : Nat) (r : EvaluatedRule) (calls : List Call)
    (hr : e.rules[i]?=some r) : (e.events i calls=e.events i (calls.filter (carries r.condition)) ∧
      ∀ pre c post, calls=pre++c::post → carries r.condition c=false →
        (e.run (pre++[c])).rules[i]?=(e.run pre).rules[i]?) ↔
    ∀ pre c post, calls=pre++c::post → carries r.condition c=false →
      (e.run pre).rules[i]?.map EvaluatedRule.state=some .ok := by
  have hkeeps : ∀ pre c, carries r.condition c=false →
      ((e.run (pre++[c])).rules[i]?=(e.run pre).rules[i]? ↔
        (e.run pre).rules[i]?.map EvaluatedRule.state=some .ok) := by
    intro pre c hc
    have hcond:=foldl_after_condition r pre
    rw [run_rule hr,run_rule hr,foldl_append,foldl_cons,foldl_nil,some.injEq,map_some,some.injEq]
    exact after_eq_self_iff (hcond ▸ hc)
  constructor
  · rintro ⟨-,huntouched⟩ pre c post hcalls hc
    exact (hkeeps pre c hc).mp (huntouched pre c post hcalls hc)
  · intro hok
    refine ⟨?_,fun pre c post hcalls hc => (hkeeps pre c hc).mpr (hok pre c post hcalls hc)⟩
    rw [events_eq hr,events_eq hr]
    refine runEvents_filter fun pre c post hcalls hc => ?_
    simpa [run_rule hr] using hok pre c post hcalls hc

def memBatch : List Metric :=
  [⟨"mem",∅,(∅ : StringMap FieldValue).insert "used" (.int64 1),.gauge⟩]
def mixedCalls : List Call := [busyCall 0,⟨memBatch,1000000000⟩,busyCall 2]

theorem other_batches_ignored_cpu : (⟨[cpuWatch ""],[]⟩ : Engine).events 0 [⟨memBatch,0⟩,busyCall 1] =
      (⟨[cpuWatch ""],[]⟩ : Engine).events 0
        ([⟨memBatch,0⟩,busyCall 1].filter (carries (cpuWatch "").condition)) :=
  ((other_batches_ignored_iff ⟨[cpuWatch ""],[]⟩ 0 (cpuWatch "") [⟨memBatch,0⟩,busyCall 1]
    rfl).mpr (by
      intro pre c post hcalls hc
      match pre,hcalls with
      | [],_ => rfl
      | [_],hcalls =>
        cases hcalls
        cases hc
      | _::_::pre,hcalls => simp at hcalls)).1

theorem other_batch_ends_alert : (mixedCalls.map Call.now).Pairwise (· ≤ ·) ∧
    mixedCalls.filter (carries (cpuWatch "").condition)=[busyCall 0,busyCall 2] ∧
    ((⟨[cpuWatch ""],[]⟩ : Engine).events 0 mixedCalls).length=3 ∧
    ((⟨[cpuWatch ""],[]⟩ : Engine).events 0 [busyCall 0,busyCall 2]).length=1 :=
  ⟨by decide,rfl,rfl,rfl⟩

end OpsAgent.Alerting
