import OpsAgent.Collector.Scheduler
import OpsAgent.Collector.SumAggregator
import OpsAgent.Lib.Pool
import OpsAgent.Lib.Window

/-!
# What the periodic push does with the added metrics
-/

namespace OpsAgent.Collector
open Lib.Exec Lib.Pool Lib.Window List

variable {P : Plugins} (t : Task P)

def Plugins.object (P : Plugins) : Object P.Aggregator Metric (List Metric) :=
  ⟨P.add,P.push,P.reset⟩

/- `runAggregatorPush` and `pushAggregators`. -/
def Pc.pushes : Pc → Bool
  | .pushSelect => true
  | .pushing _ _ _ => true
  | .resetting _ _ _ => true
  | .pushWriting _ _ _ => true
  | _ => false

/- Between `Push` and `Reset` on aggregator `k`. -/
def Pc.resets (k : Nat) : Pc → Bool
  | .resetting _ j _ => decide (j=k)
  | _ => false

theorem pushes_of_resets {k : Nat} {pc : Pc} (h : pc.resets k) : pc.pushes := by
  cases pc <;> first | rfl | cases h
theorem pushed_not_resets (final : Bool) (k : Nat) : (pushed final).resets k=false := by
  cases final <;> rfl

def Task.pushes : Task P → Bool
  | .input _ => false
  | .aggregatorPush => true

theorem entry_pushes : t.entry.pushes=t.pushes := by cases t <;> rfl
theorem entry_resets (k : Nat) : t.entry.resets k=false := by cases t <;> rfl

theorem tasks_pushes (pipe : Pipeline P) : pipe.tasks.countP Task.pushes≤1 := by
  have hin : (pipe.inputs.map Task.input).countP Task.pushes=0 := by
    rw [countP_eq_zero]
    intro t ht
    obtain ⟨si,-,rfl⟩ := mem_map.mp ht
    exact Bool.false_ne_true
  rw [Pipeline.tasks,countP_append,hin]
  split
  · exact Nat.zero_le 1
  · exact Nat.le_refl 1

def Pipeline.event (pipe : Pipeline P) (k : Nat) : Pc → Answer → Option (Event Metric (List Metric))
  | .feeding ((m,j)::_) _, .ok => if j=k then some (.added m) else none
  | .pushing _ j _, .ok =>
    if j=k then pipe.aggregators[k]?.map fun agg => .pushed (P.push agg) else none
  | .resetting _ j _, .ok => if j=k then some .reset else none
  | _, _ => none

namespace Scheduler

def event (s : Scheduler P) (k : Nat) : Label → Option (Event Metric (List Metric))
  | .goroutine i a => s.pool[i]?.bind fun g => s.pipe.event k g.pc a
  | _ => none

def history (k : Nat) (s : Scheduler P) : List Label → List (Event Metric (List Metric))
  | [] => []
  | l::ls => (s.event k l).toList ++ match s.step l with
    | some t => history k t ls
    | none => []

def resetting (s : Scheduler P) (k : Nat) : Bool := s.pool.any fun g => g.pc.resets k
def addsApart (k : Nat) (s : Scheduler P) (l : Label) : Bool :=
  match s.event k l with
  | some (.added _) => !s.resetting k
  | _ => true
def pushers (s : Scheduler P) : Nat := s.pool.countP fun g => g.pc.pushes

/-- Without `Reload`, only `Start` takes the mutex for more than a step, and it
starts at most one goroutine that pushes. -/
structure Periodic (s : Scheduler P) : Prop where
  pending : s.pending=[]
  held : ∀ hd, s.mu=some hd → ∃ todo, hd=.start todo ∧ s.outCh≠none ∧
    s.pushers+todo.countP Task.pushes≤1
  pushers : s.pushers≤1
  unmade : s.outCh=none → s.pool=[]

theorem stepGoroutine_pushes {s : Scheduler P} {g : Goroutine P} {a : Answer}
    {r : Goroutine P × Scheduler P} (h : s.stepGoroutine g a=some r)
    (hr : r.1.pc.pushes) : g.pc.pushes := by
  obtain ⟨pc',t,rfl,ht⟩ := stepGoroutine_turns h
  generalize g.pc=pc at ht ⊢
  cases ht <;> first | rfl | cases hr

variable (s : Scheduler P) (pipe : Pipeline P)

theorem pushers_set (i : Nat) (g x : Goroutine P) (hi : s.pool[i]?=some g)
    (h : x.pc.pushes → g.pc.pushes) : (s.pool.set i x).countP (fun g => g.pc.pushes) ≤ s.pushers := by
  obtain ⟨pre,post,hl,-,hset⟩ := exists_split hi
  rw [hset x,pushers,hl]
  simp only [countP_append,countP_cons]
  by_cases hx : x.pc.pushes
  · rw [if_pos hx,if_pos (h hx)]
  · rw [if_neg hx]
    omega

theorem start_periodic (h : s.Periodic) (ho : s.outCh=none) : s.begin.Periodic := by
  have hnone : s.pushers=0 := by
    rw [pushers,h.unmade ho]
    rfl
  refine ⟨h.pending,?_,h.pushers,nofun⟩
  intro hd hm
  cases hm
  refine ⟨_,rfl,nofun,?_⟩
  have htasks:=tasks_pushes s.pipe
  have hpool : s.begin.pushers=0 := hnone
  omega

theorem stepHolder_periodic (s t : Scheduler P) (hd : Holder P) (hm : s.mu=some hd)
    (h : s.Periodic) (hs : s.stepHolder hd=some t) : t.Periodic := by
  obtain ⟨todo,rfl,hout,hcount⟩ := h.held hd hm
  cases stepHolder_proceeds hs with
  | started => exact ⟨h.pending,nofun,h.pushers,h.unmade⟩
  | startSpawn task todo =>
    have hpool : (s.spawn task).pushers=s.pushers + if task.pushes then 1 else 0 := by
      simp [pushers,spawn,entry_pushes]
    rw [countP_cons] at hcount
    refine ⟨h.pending,?_,?_,fun ho => absurd ho hout⟩
    · intro hd hm
      cases hm
      refine ⟨todo,rfl,hout,?_⟩
      change (s.spawn task).pushers+_≤1
      omega
    · change (s.spawn task).pushers≤1
      omega

theorem step_periodic (s t : Scheduler P) (l : Label) (h : s.Periodic)
    (hl : ∀ cfg, l ≠ .callReload cfg) (hs : s.step l=some t) : t.Periodic := by
  cases step_moves hs with
  | start hm ho => exact start_periodic s h ho
  | callReload cfg => exact absurd rfl (hl cfg)
  | lockReload i cfg hm hp =>
    rw [h.pending] at hp
    cases hp
  | holder hd _ hm hstep => exact stepHolder_periodic s t hd hm h hstep
  | goroutine i a g r hi hr =>
    obtain ⟨-,-,pipe,buffer,crashed,hfr⟩ := stepGoroutine_frame hr
    have hset:=pushers_set s i g r.1 hi (stepGoroutine_pushes hr)
    rw [hfr]
    refine ⟨h.pending,?_,Nat.le_trans hset h.pushers,?_⟩
    · intro hd hm
      obtain ⟨todo,he,hout,hcount⟩ := h.held hd hm
      exact ⟨todo,he,hout,Nat.le_trans (Nat.add_le_add_right hset _) hcount⟩
    · intro ho
      rw [h.unmade ho] at hi
      cases hi
  | closer _ hstep =>
    obtain ⟨closer,closes,crashed,hfr⟩ := stepCloser_frame hstep
    rw [hfr]
    exact ⟨h.pending,h.held,h.pushers,h.unmade⟩
  | _ => exact ⟨h.pending,h.held,h.pushers,h.unmade⟩

theorem newScheduler_periodic : (newScheduler pipe).Periodic :=
  ⟨rfl,nofun,Nat.zero_le 1,fun _ => rfl⟩

/- What a step of a goroutine from `pc` to `pc'` does to aggregator `k`, which is
`x` before it. -/
inductive Effect (k : Nat) (x : P.Aggregator) (pipe : Pipeline P) (pc pc' : Pc) :
    Option (Event Metric (List Metric)) → Prop
  | added (m) : pipe.aggregators[k]?=some (P.add x m) →
    pc'.resets k=pc.resets k → Effect k x pipe pc pc' (some (.added m))
  | pushed : pipe.aggregators[k]?=some x → pc.pushes → pc.resets k=false →
    pc'.resets k → Effect k x pipe pc pc' (some (.pushed (P.push x)))
  | reset : pipe.aggregators[k]?=some (P.reset x) → pc.resets k →
    pc'.pushes → pc'.resets k=false → Effect k x pipe pc pc' (some .reset)
  | unchanged : pipe.aggregators[k]?=some x → pc'.resets k=pc.resets k → Effect k x pipe pc pc' none

theorem modify_self {α : Type*} {xs : List α} {k : Nat} {x : α} (f : α → α)
    (h : xs[k]?=some x) : (xs.modify k f)[k]?=some (f x) := by
  rw [getElem?_modify_eq,h]
  rfl

theorem stepGoroutine_effect (g : Goroutine P) (a : Answer)
    (r : Goroutine P × Scheduler P) (k : Nat) (x : P.Aggregator)
    (hx : s.pipe.aggregators[k]?=some x) (h : s.stepGoroutine g a=some r) :
    Effect k x r.2.pipe g.pc r.1.pc (s.pipe.event k g.pc a) := by
  obtain ⟨pc',t,rfl,ht⟩ := stepGoroutine_turns h
  generalize g.pc=pc at ht ⊢
  cases ht with
  | feed m j todo ms =>
    by_cases hj : j=k
    · subst hj
      rw [Pipeline.event,if_pos rfl]
      exact .added m (modify_self _ hx) rfl
    · rw [Pipeline.event,if_neg hj]
      exact .unchanged ((getElem?_modify_ne _ _ hj).trans hx) rfl
  | push final j acc agg hagg =>
    by_cases hj : j=k
    · subst hj
      cases hagg.symm.trans hx
      rw [Pipeline.event,if_pos rfl,hx]
      exact .pushed hx rfl rfl (decide_eq_true rfl)
    · rw [Pipeline.event,if_neg hj]
      exact .unchanged hx (decide_eq_false hj)
  | pushedNone final j hagg =>
    have hj : j≠k := by
      rintro rfl
      cases hx.symm.trans hagg
    rw [Pipeline.event,if_neg hj]
    exact .unchanged hx (pushed_not_resets final k)
  | pushedSome final j m acc hagg =>
    have hj : j≠k := by
      rintro rfl
      cases hx.symm.trans hagg
    rw [Pipeline.event,if_neg hj]
    exact .unchanged hx rfl
  | reset final j acc =>
    by_cases hj : j=k
    · subst hj
      rw [Pipeline.event,if_pos rfl]
      exact .reset (modify_self _ hx) (decide_eq_true rfl) rfl rfl
    · rw [Pipeline.event,if_neg hj]
      exact .unchanged ((getElem?_modify_ne _ _ hj).trans hx) (decide_eq_false hj).symm
  | pushWritten final j acc hout => exact .unchanged hx (pushed_not_resets final k)
  | _ => exact .unchanged hx rfl

def At (k : Nat) (s : Scheduler P) (x : P.Aggregator × Bool) : Prop :=
  s.pipe.aggregators[k]?=some x.1 ∧ s.resetting k=x.2

theorem not_resetting (h : s.pushers≤1) (k i : Nat) (g : Goroutine P)
    (hi : s.pool[i]?=some g) (hp : g.pc.pushes) (hr : g.pc.resets k=false) : s.resetting k=false := by
  rw [resetting,any_eq_false]
  intro x hx hres
  obtain ⟨j,hj⟩ := mem_iff_getElem?.mp hx
  have hij : i=j := index_unique h hi hj hp (pushes_of_resets hres)
  subst hij
  cases hi.symm.trans hj
  cases hr.symm.trans hres

/- One step of the history: `b` is the object after it. -/
structure Follows (s : Scheduler P) (k : Nat) (l : Label) (x b : P.Aggregator × Bool) : Prop where
  run : ∀ es u, P.object.Run b es u → P.object.Run x ((s.event k l).toList++es) u
  apart : s.addsApart k l → ∀ es : List (Event Metric (List Metric)),
    apart b.2 es → apart x.2 ((s.event k l).toList++es)

variable (k : Nat) (l : Label) (x : P.Aggregator)

theorem follows_quiet (x : P.Aggregator × Bool) (h : s.event k l=none) : s.Follows k l x x := by
  refine ⟨fun es u hu => ?_,fun _ es he => ?_⟩ <;> rw [h]
  · exact hu
  · exact he

theorem follows_added (m : Metric)
    (h : s.event k l=some (.added m)) : s.Follows k l (x,s.resetting k) (P.add x m,s.resetting k) := by
  refine ⟨fun es u hu => ?_,fun hg es he => ?_⟩
  · rw [h]
    exact .added x _ m es u hu
  · rw [h]
    simp only [addsApart,h,Bool.not_eq_true'] at hg
    simp only [hg] at he ⊢
    exact he

theorem follows_pushed
    (h : s.event k l=some (.pushed (P.push x))) : s.Follows k l (x,false) (x,true) := by
  refine ⟨fun es u hu => ?_,fun _ es he => ?_⟩ <;> rw [h]
  · exact .pushed x es u hu
  · exact he

theorem follows_reset (h : s.event k l=some .reset) : s.Follows k l (x,true) (P.reset x,false) := by
  refine ⟨fun es u hu => ?_,fun _ es he => ?_⟩ <;> rw [h]
  · exact .reset x es u hu
  · exact he

theorem goroutine_follows (s t : Scheduler P) (h : s.pushers≤1) (ht : t.pushers≤1) (k i : Nat)
    (a : Answer) (x : P.Aggregator × Bool) (hat : At k s x) (g g' : Goroutine P)
    (hi : s.pool[i]?=some g) (hpool : t.pool=s.pool.set i g')
    (heff : Effect k x.1 t.pipe g.pc g'.pc (s.event k (.goroutine i a))) :
    ∃ b, At k t b ∧ s.Follows k (.goroutine i a) x b := by
  obtain ⟨x,p⟩ := x
  obtain ⟨hx,rfl⟩ : s.pipe.aggregators[k]?=some x ∧ s.resetting k=p := hat
  have hlen : i<s.pool.length := (List.getElem?_eq_some_iff.mp hi).1
  have hsame : g'.pc.resets k=g.pc.resets k → t.resetting k=s.resetting k := by
    intro hres
    rw [resetting,hpool,any_set hi hres]
    rfl
  generalize he : s.event k (.goroutine i a)=ev at heff
  cases heff with
  | added m hagg hres => exact ⟨_,⟨hagg,hsame hres⟩,follows_added s k _ x m he⟩
  | unchanged hagg hres => exact ⟨_,⟨hagg,hsame hres⟩,follows_quiet s k _ _ he⟩
  | pushed hagg hpush hno hres =>
    have hnow : t.resetting k := by
      rw [resetting,hpool,any_eq_true]
      exact ⟨g',mem_set hlen g',hres⟩
    rw [not_resetting s h k i g hi hpush hno]
    exact ⟨(x,true),⟨hagg,hnow⟩,follows_pushed s k _ x he⟩
  | reset hagg hres hpush hno =>
    have hwas : s.resetting k := by
      rw [resetting,any_eq_true]
      exact ⟨g,mem_of_getElem? hi,hres⟩
    have hi' : t.pool[i]?=some g' := by rw [hpool,getElem?_set_of hi g']
    rw [hwas]
    exact ⟨(P.reset x,false),⟨hagg,not_resetting t ht k i g' hi' hpush hno⟩,
      follows_reset s k _ x he⟩

theorem step_follows (s t : Scheduler P) (k : Nat) (l : Label) (x : P.Aggregator × Bool)
    (h : s.Periodic) (hl : ∀ cfg, l ≠ .callReload cfg) (hat : At k s x) (hs : s.step l=some t) :
    ∃ b, At k t b ∧ s.Follows k l x b := by
  have ht:=step_periodic s t l h hl hs
  cases step_moves hs with
  | callReload cfg => exact absurd rfl (hl cfg)
  | lockReload i cfg hm hp =>
    rw [h.pending] at hp
    cases hp
  | holder hd _ hm hstep =>
    refine ⟨x,?_,follows_quiet s k _ x rfl⟩
    obtain ⟨todo,rfl,-,-⟩ := h.held hd hm
    cases stepHolder_proceeds hstep with
    | started => exact hat
    | startSpawn task todo =>
      refine ⟨hat.1,?_⟩
      have hres : (s.spawn task).resetting k=s.resetting k := by simp [resetting,spawn,entry_resets]
      exact hres.trans hat.2
  | goroutine i a g r hi hr =>
    have heff:=stepGoroutine_effect s g a r k x.1 hat.1 hr
    obtain ⟨-,-,pipe,buffer,crashed,hfr⟩ := stepGoroutine_frame hr
    have hev : s.event k (.goroutine i a)=s.pipe.event k g.pc a := by
      rw [event,hi]
      rfl
    rw [← hev] at heff
    refine goroutine_follows s _ h.pushers ht.pushers k i a x hat g r.1 hi ?_ heff
    rw [hfr]
    rfl
  | closer _ hstep =>
    refine ⟨x,?_,follows_quiet s k _ x rfl⟩
    obtain ⟨closer,closes,crashed,hfr⟩ := stepCloser_frame hstep
    rw [hfr]
    exact hat
  | _ => exact ⟨x,hat,follows_quiet s k _ x rfl⟩

theorem history_run (s t : Scheduler P) (k : Nat) (ls : List Label) (x : P.Aggregator × Bool)
    (h : s.Periodic) (hl : ∀ cfg, .callReload cfg∉ls) (hat : At k s x)
    (hg : guarded step (addsApart k) s ls) (hr : exec step s ls=some t) :
    (∃ u, P.object.Run x (s.history k ls) u) ∧ apart x.2 (s.history k ls) := by
  induction ls generalizing s x with
  | nil => exact ⟨⟨x,.nil x⟩,rfl⟩
  | cons l ls ih =>
    obtain ⟨v,hv,hr⟩ := (exec_cons step s t l ls).mp hr
    obtain ⟨hgl,hg⟩ := guarded_cons hg hv
    have hhead : ∀ cfg, l ≠ .callReload cfg := by
      rintro cfg rfl
      exact hl cfg mem_cons_self
    have htail : ∀ cfg, .callReload cfg∉ls := fun cfg hm => hl cfg (mem_cons_of_mem l hm)
    obtain ⟨b,hb,hf⟩ := step_follows s v k l x h hhead hat hv
    obtain ⟨⟨u,hu⟩,ha⟩ := ih v b (step_periodic s v l h hhead hv) htail hb hg hr
    rw [history,hv]
    exact ⟨⟨u,hf.run _ u hu⟩,hf.apart hgl _ ha⟩

/-- Without additions between a push and its reset, each push is that of a new aggregator which was
given the metrics of its window. -/
theorem emissions_of_windows (k : Nat) (fresh : P.Aggregator) (hk : pipe.aggregators[k]?=some fresh)
    (hreset : ∀ ms : List Metric, P.reset (ms.foldl P.add fresh)=fresh) (ls : List Label)
    (t : Scheduler P) (hl : ∀ cfg, .callReload cfg∉ls)
    (hg : guarded step (addsApart k) (newScheduler pipe) ls)
    (hr : exec step (newScheduler pipe) ls=some t) : emissions ((newScheduler pipe).history k ls) =
      (windows [] ((newScheduler pipe).history k ls)).map fun ms => P.push (ms.foldl P.add fresh) := by
  obtain ⟨⟨u,hu⟩,ha⟩ := history_run (newScheduler pipe) t k ls (fresh,false)
    (newScheduler_periodic pipe) hl ⟨hk,rfl⟩ hg hr
  exact emissions_eq_windows P.object fresh hreset hu [] ha rfl

end Scheduler

def withSum (F : FloatArith) (Q : Plugins) : Plugins where
  Input := Q.Input
  Processor := Q.Processor
  Aggregator := SumAggregator ⊕ Q.Aggregator
  Output := Q.Output
  apply := Q.apply
  add
    | .inl agg, m => .inl (agg.add F m)
    | .inr agg, m => .inr (Q.add agg m)
  push
    | .inl agg => agg.push
    | .inr agg => Q.push agg
  reset
    | .inl agg => .inl agg.reset
    | .inr agg => .inr (Q.reset agg)
  write := Q.write
  getInput := Q.getInput
  getProcessor := Q.getProcessor
  getAggregator type :=
    if type="sum" then some fun cfg => (SumAggregator.init cfg).map .inl
    else (Q.getAggregator type).map fun init cfg => (init cfg).map .inr
  getOutput := Q.getOutput
  quote := Q.quote

theorem foldl_withSum (F : FloatArith) (Q : Plugins) (ms : List Metric) (agg : SumAggregator) :
    ms.foldl (withSum F Q).add (.inl agg)=.inl (ms.foldl (SumAggregator.add F) agg) := by
  induction ms generalizing agg with
  | nil => rfl
  | cons m ms ih => exact ih (agg.add F m)

namespace Scheduler

/-- If nothing is added between a `Push` and its `Reset` and every value of a configured field is a `float64`
or an `int64`, the added metrics are those of the windows, in order, and each push emits for each field the sum
of all its values in its own window. -/
theorem pushes_conserve_values (F : FloatArith) (Q : Plugins) (pipe : Pipeline (withSum F Q))
    (k : Nat) (fields : List String)
    (hk : pipe.aggregators[k]?=some (.inl (SumAggregator.new fields))) (hnd : fields.Nodup)
    (ls : List Label) (t : Scheduler (withSum F Q)) (hl : ∀ cfg, .callReload cfg∉ls)
    (hg : guarded step (addsApart k) (newScheduler pipe) ls=true)
    (hr : exec step (newScheduler pipe) ls=some t)
    (hnum : ∀ m∈added ((newScheduler pipe).history k ls), Numeric fields m=true) :
    let events:=(newScheduler pipe).history k ls
    (windows [] events).flatten++openWindow [] events=added events ∧
      ∀ f∈fields, (emissions events).map (SumAggregator.emitted f) =
        (windows [] events).map fun ms => SumAggregator.total F (given f ms) := by
  intro events
  have hwindows:=windows_partition [] events
  refine ⟨hwindows,fun f hf => ?_⟩
  have hreset : ∀ ms : List Metric, (withSum F Q).reset
      (ms.foldl (withSum F Q).add (.inl (SumAggregator.new fields))) =
        .inl (SumAggregator.new fields) := by
    intro ms
    rw [foldl_withSum]
    exact congrArg Sum.inl (SumAggregator.reset_foldl_add F fields ms)
  have hemit:=emissions_of_windows pipe k _ hk hreset ls t hl hg hr
  rw [show emissions events=_ from hemit,map_map]
  refine map_congr_left fun ms hms => ?_
  have hadded : ∀ m∈ms, m∈added events := by
    intro m hm
    rw [← show _=added events from hwindows]
    exact mem_append_left _ (mem_flatten_of_mem hms hm)
  rw [Function.comp_apply,foldl_withSum]
  exact SumAggregator.emitted_push_foldl F fields hnd hf fun m hm => hnum m (hadded m hm)

def noFloats : FloatArith := ⟨fun x _ => x,fun _ => ⟨0⟩⟩
def hits (n : Int64) : Metric :=
  ⟨"web",∅,(∅ : StringMap FieldValue).insert "hits" (.int64 n),.gauge⟩
def hitsPipeline : Pipeline (withSum noFloats smallPlugins) :=
  ⟨[⟨"cpu",1,[]⟩],[],[.inl (SumAggregator.new ["hits"])],[]⟩

def pushBetweenGathers : List Label :=
  [.start,.holder,.holder,.holder,.goroutine 0 .tick,.goroutine 0 (.gathered [hits 5,hits 7]),
    .goroutine 0 .ok,.goroutine 0 .ok,.goroutine 0 .ok,.goroutine 1 .tick,.goroutine 1 .ok,
    .goroutine 1 .ok,.goroutine 0 .ok,.goroutine 0 .ok,.goroutine 0 .ok,.goroutine 0 .send,
    .goroutine 0 .tick,.goroutine 0 (.gathered [hits 1]),.goroutine 0 .ok,.goroutine 0 .ok]

theorem pushes_conserve_values_betweenGathers :
    let events:=(newScheduler hitsPipeline).history 0 pushBetweenGathers
    openWindow [] events=[hits 1] ∧
      (emissions events).map (SumAggregator.emitted "hits")=[some (.int64 12)] ∧
      (windows [] events).flatten++openWindow [] events=added events ∧
      ∀ f∈["hits"], (emissions events).map (SumAggregator.emitted f) =
        (windows [] events).map fun ms =>
          SumAggregator.total noFloats (given f ms) :=
  ⟨rfl,by decide,
    pushes_conserve_values noFloats smallPlugins hitsPipeline 0 ["hits"] rfl (by decide)
      pushBetweenGathers _ (by simp [pushBetweenGathers]) (by decide) rfl (by decide)⟩

/-- A gather adds a metric after the `Push` and before the `Reset`: the next push
does not contain it. -/
theorem add_before_reset_is_lost :
    ¬ ∀ (pipe : Pipeline (withSum noFloats smallPlugins)) (k : Nat) (fields : List String)
      (ls : List Label) (t : Scheduler (withSum noFloats smallPlugins)),
      pipe.aggregators[k]?=some (.inl (SumAggregator.new fields)) → fields.Nodup →
      (∀ cfg, .callReload cfg∉ls) → exec step (newScheduler pipe) ls=some t →
      ∀ f∈fields, (emissions ((newScheduler pipe).history k ls)).map (SumAggregator.emitted f) =
        (windows [] ((newScheduler pipe).history k ls)).map fun ms =>
          SumAggregator.total noFloats (given f ms) := by
  intro h
  have hlost:=h hitsPipeline 0 ["hits"]
    [.start,.holder,.holder,.holder,.goroutine 0 .tick,.goroutine 0 (.gathered [hits 5]),
      .goroutine 0 .ok,.goroutine 1 .tick,.goroutine 1 .ok,.goroutine 0 .ok,.goroutine 1 .ok,
      .goroutine 1 .ok,.goroutine 1 .tick,.goroutine 1 .ok] _ rfl (by decide) (by simp) rfl "hits"
    mem_cons_self
  exact absurd hlost (by decide)

end Scheduler
end OpsAgent.Collector
