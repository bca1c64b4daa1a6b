import OpsAgent.Collector.Pipeline
import OpsAgent.Lib.Exec

/-!
# The scheduler as a system of goroutines (`collector/scheduler.go`)

A step is one call of a plugin, one operation on the mutex, the `WaitGroup`, a context or the channel, or
the start of a goroutine. `Start` and `Reload` keep the mutex over many steps, so where they stand is
recorded as its holder. The counter of the `WaitGroup` is the number of unfinished goroutines.
-/

namespace OpsAgent.Collector

inductive Task (P : Plugins) where
  | input (si : ScheduledInput P)
  | aggregatorPush

/-- Where a goroutine of the `WaitGroup` stands: `runInput` and `gatherOnce` up to
`sending`, then `runAggregatorPush` and `pushAggregators`. -/
inductive Pc where
  | select | gathering
  | processing (k : Nat) (metrics : List Metric)
  -- the calls of `agg.Add` that are left, by aggregator
  | feeding (todo : List (Metric × Nat)) (metrics : List Metric)
  | writing (k : Nat) (metrics : List Metric)
  -- `s.mu.Lock()` around `s.lastCollection`
  | locking (metrics : List Metric)
  | sending (metrics : List Metric)
  | pushSelect
  -- about to call `Push` on aggregator `k`; `final` is the push before the exit
  | pushing (final : Bool) (k : Nat) (acc : List Metric)
  | resetting (final : Bool) (k : Nat) (acc : List Metric)
  | pushWriting (final : Bool) (k : Nat) (acc : List Metric)
  | finished

structure Goroutine (P : Plugins) where
  task : Task P
  ctx : Nat
  pc : Pc

def Goroutine.live {P : Plugins} (g : Goroutine P) : Bool :=
  match g.pc with
  | .finished => false
  | _ => true

inductive Holder (P : Plugins) where
  | start (todo : List (Task P))
  | reloadCancel (cfg : ReloadConfig)
  | reloadWait (cfg : ReloadConfig)
  | reloadPush (cfg : ReloadConfig) (k : Nat)
  | reloadReset (cfg : ReloadConfig) (k : Nat)
  | reloadBuild (cfg : ReloadConfig)
  | reloadSpawn (todo : List (Task P))

/-- The goroutine `s.wg.Wait(); close(ch)`. When the counter falls to zero, one
that waits is woken; `Wait` panics if the counter has risen again by the time it
runs. -/
inductive Closer where
  | absent | enter | waiting | woken | closing | exited
  deriving DecidableEq

inductive StopPc where
  | notCalled | locking | waiting | returned

inductive Crash where
  | sendOnClosedChannel | waitGroupReused
  deriving DecidableEq

structure Scheduler (P : Plugins) where
  pipe : Pipeline P
  interval : Int
  running : Bool
  cancel : Option Nat
  contexts : Nat
  doneContexts : List Nat
  mu : Option (Holder P)
  pool : List (Goroutine P)
  closer : Closer
  -- the capacity of `s.outCh`, once it is made
  outCh : Option Nat
  buffer : List (List Metric)
  closes : Nat
  pending : List ReloadConfig
  stop : StopPc
  results : List (Option String)
  crashed : Option Crash

inductive Answer where
  | ok | tick | ctxDone | failed
  -- `Gather` returned nil, and this is what the accumulator collected
  | gathered (metrics : List Metric)
  | send | handoff

inductive Label where
  | start
  | callReload (cfg : ReloadConfig)
  | lockReload (i : Nat)
  | callStop | lockStop | waitStop | holder
  | goroutine (i : Nat) (a : Answer)
  | closer | recv
  | parentDone (ctx : Nat)

variable {P : Plugins}

def defaultSchedulerInterval : Int := 10000000000
def defaultAccumulatorSize : Nat := 1000

def newScheduler (pipe : Pipeline P) : Scheduler P where
  pipe := pipe
  interval := match pipe.inputs with
    | si::_ => if 0<si.interval then si.interval else defaultSchedulerInterval
    | [] => defaultSchedulerInterval
  running := false
  cancel := none
  contexts := 0
  doneContexts := []
  mu := none
  pool := []
  closer := .absent
  outCh := none
  buffer := []
  closes := 0
  pending := []
  stop := .notCalled
  results := []
  crashed := none

def Pipeline.tasks (pipe : Pipeline P) : List (Task P) :=
  pipe.inputs.map .input ++ if pipe.aggregators.isEmpty then [] else [.aggregatorPush]
def Task.entry : Task P → Pc
  | .input _ => .select
  | .aggregatorPush => .pushSelect
def Task.tagged (t : Task P) (metrics : List Metric) : List Metric :=
  match t with
  | .input si => metrics.map fun m => si.tags.foldl (fun m tag => m.addTag tag.1 tag.2) m
  | .aggregatorPush => metrics
def accumulate (acc metrics : List Metric) : List Metric :=
  (acc++metrics).take defaultAccumulatorSize
def pushed (final : Bool) : Pc := if final then .finished else .pushSelect

namespace Scheduler

def live (s : Scheduler P) : Nat := s.pool.countP Goroutine.live
def cancelCurrent (s : Scheduler P) : Scheduler P :=
  {s with doneContexts := s.cancel.toList++s.doneContexts}
def newContext (s : Scheduler P) : Scheduler P :=
  {s with cancel := some s.contexts, contexts := s.contexts+1}

/-- `s.wg.Go`, with the newest context. -/
def spawn (s : Scheduler P) (t : Task P) : Scheduler P :=
  {s with pool := s.pool++[⟨t,s.contexts-1,t.entry⟩]}
def returnReload (s : Scheduler P) (result : Option String) : Scheduler P :=
  {s with mu := none, results := s.results++[result]}
def wake (s : Scheduler P) : Scheduler P :=
  {s with closer := if s.closer=.waiting ∧ s.live=0 then .woken else s.closer}

def stepGoroutine (s : Scheduler P) (g : Goroutine P) (a : Answer) :
    Option (Goroutine P × Scheduler P) :=
  match g.pc, a with
  | .select, .tick => some ({g with pc := .gathering},s)
  | .select, .ctxDone =>
    if g.ctx∈s.doneContexts then some ({g with pc := .finished},s) else none
  | .gathering, .failed => some ({g with pc := .select},s)
  | .gathering, .gathered metrics =>
    some ({ g with pc := if metrics.isEmpty then .select
                      else .processing 0 (g.task.tagged metrics)},s)
  | .processing k metrics, .ok => match s.pipe.processors[k]? with
    | some p =>
      some ({g with pc := .processing (k+1) (P.apply p metrics).2},
        { s with pipe := { s.pipe with
            processors := s.pipe.processors.set k (P.apply p metrics).1} })
    | none =>
      some ({ g with pc := .feeding (metrics.flatMap fun m =>
        (List.range s.pipe.aggregators.length).map fun k => (m,k)) metrics},s)
  | .feeding ((m,k)::todo) metrics, .ok =>
    some ({g with pc := .feeding todo metrics},
      { s with pipe := { s.pipe with
          aggregators := s.pipe.aggregators.modify k fun agg => P.add agg m} })
  | .feeding [] metrics, .ok => some ({g with pc := .writing 0 metrics},s)
  -- the error of `Write` is only logged
  | .writing k metrics, .ok => match s.pipe.outputs[k]? with
    | some out =>
      some ({g with pc := .writing (k+1) metrics},
        {s with pipe := {s.pipe with outputs := s.pipe.outputs.set k (P.write out metrics)} })
    | none => some ({g with pc := .locking metrics},s)
  | .locking metrics, .ok => match s.mu with
    | none => some ({g with pc := .sending metrics},s)
    | some _ => none
  | .sending metrics, .send =>
    if 0<s.closes then some (g,{s with crashed := some .sendOnClosedChannel})
    else if s.buffer.length<s.outCh.getD 0 then
      some ({g with pc := .select},{s with buffer := s.buffer++[metrics]})
    else none
  | .sending _, .handoff =>
    if s.closes=0 ∧ s.buffer.isEmpty then some ({g with pc := .select},s) else none
  | .sending _, .ctxDone =>
    if g.ctx∈s.doneContexts then some ({g with pc := .select},s) else none
  | .pushSelect, .tick => some ({g with pc := .pushing false 0 []},s)
  | .pushSelect, .ctxDone =>
    if g.ctx∈s.doneContexts then some ({g with pc := .pushing true 0 []},s) else none
  | .pushing final k acc, .ok => match s.pipe.aggregators[k]? with
    | some agg => some ({g with pc := .resetting final k (accumulate acc (P.push agg))},s)
    | none =>
      some ({g with pc := if acc.isEmpty then pushed final else .pushWriting final 0 acc},s)
  | .resetting final k acc, .ok =>
    some ({g with pc := .pushing final (k+1) acc},
      {s with pipe := {s.pipe with aggregators := s.pipe.aggregators.modify k P.reset} })
  | .pushWriting final k acc, .ok => match s.pipe.outputs[k]? with
    | some out =>
      some ({g with pc := .pushWriting final (k+1) acc},
        {s with pipe := {s.pipe with outputs := s.pipe.outputs.set k (P.write out acc)} })
    | none => some ({g with pc := pushed final},s)
  | _, _ => none

def stepHolder (s : Scheduler P) (h : Holder P) : Option (Scheduler P) :=
  match h with
  | .start (t::todo) => some {s.spawn t with mu := some (.start todo)}
  | .start [] => some {s with mu := none, closer := .enter}
  | .reloadCancel cfg => some {s.cancelCurrent with mu := some (.reloadWait cfg)}
  | .reloadWait cfg =>
    if s.live=0 then some {s with mu := some (.reloadPush cfg 0)} else none
  -- what the aggregator pushes here goes to an accumulator that nobody reads
  | .reloadPush cfg k =>
    some { s with mu := some (if k<s.pipe.aggregators.length then .reloadReset cfg k
                              else .reloadBuild cfg)}
  | .reloadReset cfg k =>
    some { s with pipe := {s.pipe with aggregators := s.pipe.aggregators.modify k P.reset},
                  mu := some (.reloadPush cfg (k+1))}
  | .reloadBuild cfg => match rebuild P s.interval cfg with
    | .error err => some (s.returnReload (some err))
    | .ok pipe =>
      if s.running then
        some {s.newContext with pipe := pipe, mu := some (.reloadSpawn pipe.tasks)}
      else some ({s with pipe := pipe}.returnReload none)
  | .reloadSpawn (t::todo) => some {s.spawn t with mu := some (.reloadSpawn todo)}
  | .reloadSpawn [] => some (s.returnReload none)

def stepCloser (s : Scheduler P) : Option (Scheduler P) :=
  match s.closer with
  | .enter => some {s with closer := if s.live=0 then .closing else .waiting}
  | .woken =>
    some (if s.live=0 then {s with closer := .closing}
          else {s with crashed := some .waitGroupReused})
  | .closing => some {s with closer := .exited, closes := s.closes+1}
  | _ => none

def begin (s : Scheduler P) : Scheduler P :=
  { s.newContext with outCh := some s.pipe.inputs.length, running := true,
                      mu := some (.start s.pipe.tasks)}

def stepAlive (s : Scheduler P) (l : Label) : Option (Scheduler P) :=
  match l with
  | .start => match s.mu, s.outCh with
    | none, none => some s.begin
    | _, _ => none
  | .callReload cfg => some {s with pending := s.pending++[cfg]}
  | .lockReload i => match s.mu, s.pending[i]? with
    | none, some cfg =>
      some {s with mu := some (.reloadCancel cfg), pending := s.pending.eraseIdx i}
    | _, _ => none
  | .callStop => match s.stop, s.outCh with
    | .notCalled, some _ => some {s with stop := .locking}
    | _, _ => none
  | .lockStop => match s.mu, s.stop with
    | none, .locking => some {s.cancelCurrent with running := false, stop := .waiting}
    | _, _ => none
  | .waitStop => match s.stop with
    | .waiting => if s.live=0 then some {s with stop := .returned} else none
    | _ => none
  | .holder => match s.mu with
    | some h => s.stepHolder h
    | none => none
  | .goroutine i a => match s.pool[i]? with
    | some g => match s.stepGoroutine g a with
      | some r => some {r.2 with pool := r.2.pool.set i r.1}.wake
      | none => none
    | none => none
  | .closer => s.stepCloser
  | .recv => match s.buffer with
    | _::rest => some {s with buffer := rest}
    | [] => none
  | .parentDone ctx =>
    if ctx<s.contexts then some {s with doneContexts := ctx::s.doneContexts} else none

def step (s : Scheduler P) (l : Label) : Option (Scheduler P) :=
  match s.crashed with
  | none => s.stepAlive l
  | some _ => none

inductive Turns (s : Scheduler P) (g : Goroutine P) : Pc → Answer → Pc → Scheduler P → Prop
  | tick : Turns s g .select .tick .gathering s
  | leave : g.ctx∈s.doneContexts → Turns s g .select .ctxDone .finished s
  | gatherFailed : Turns s g .gathering .failed .select s
  | gatheredNone : Turns s g .gathering (.gathered []) .select s
  | gatheredSome (m ms) :
    Turns s g .gathering (.gathered (m::ms)) (.processing 0 (g.task.tagged (m::ms))) s
  | process (k ms p) : s.pipe.processors[k]?=some p →
    Turns s g (.processing k ms) .ok (.processing (k+1) (P.apply p ms).2)
      {s with pipe := {s.pipe with processors := s.pipe.processors.set k (P.apply p ms).1} }
  | processed (k ms) : s.pipe.processors[k]?=none → Turns s g (.processing k ms) .ok
      (.feeding (ms.flatMap fun m => (List.range s.pipe.aggregators.length).map fun k => (m,k)) ms) s
  | feed (m k todo ms) : Turns s g (.feeding ((m,k)::todo) ms) .ok (.feeding todo ms)
      { s with pipe := { s.pipe with
          aggregators := s.pipe.aggregators.modify k fun agg => P.add agg m} }
  | fed (ms) : Turns s g (.feeding [] ms) .ok (.writing 0 ms) s
  | write (k ms out) : s.pipe.outputs[k]?=some out →
    Turns s g (.writing k ms) .ok (.writing (k+1) ms)
      {s with pipe := {s.pipe with outputs := s.pipe.outputs.set k (P.write out ms)} }
  | written (k ms) : s.pipe.outputs[k]?=none → Turns s g (.writing k ms) .ok (.locking ms) s
  | lock (ms) : s.mu=none → Turns s g (.locking ms) .ok (.sending ms) s
  | panic (ms) : 0<s.closes →
    Turns s g (.sending ms) .send (.sending ms) {s with crashed := some .sendOnClosedChannel}
  | send (ms) : s.closes=0 → s.buffer.length<s.outCh.getD 0 →
    Turns s g (.sending ms) .send .select {s with buffer := s.buffer++[ms]}
  | handoff (ms) : s.closes=0 → s.buffer=[] → Turns s g (.sending ms) .handoff .select s
  | unsent (ms) : g.ctx∈s.doneContexts → Turns s g (.sending ms) .ctxDone .select s
  | pushTick : Turns s g .pushSelect .tick (.pushing false 0 []) s
  | pushLast : g.ctx∈s.doneContexts → Turns s g .pushSelect .ctxDone (.pushing true 0 []) s
  | push (final k acc agg) : s.pipe.aggregators[k]?=some agg →
    Turns s g (.pushing final k acc) .ok (.resetting final k (accumulate acc (P.push agg))) s
  | pushedNone (final k) : s.pipe.aggregators[k]?=none →
    Turns s g (.pushing final k []) .ok (pushed final) s
  | pushedSome (final k m acc) : s.pipe.aggregators[k]?=none →
    Turns s g (.pushing final k (m::acc)) .ok (.pushWriting final 0 (m::acc)) s
  | reset (final k acc) : Turns s g (.resetting final k acc) .ok (.pushing final (k+1) acc)
      {s with pipe := {s.pipe with aggregators := s.pipe.aggregators.modify k P.reset} }
  | pushWrite (final k acc out) : s.pipe.outputs[k]?=some out →
    Turns s g (.pushWriting final k acc) .ok (.pushWriting final (k+1) acc)
      {s with pipe := {s.pipe with outputs := s.pipe.outputs.set k (P.write out acc)} }
  | pushWritten (final k acc) : s.pipe.outputs[k]?=none →
    Turns s g (.pushWriting final k acc) .ok (pushed final) s

variable {g : Goroutine P} {r : Goroutine P × Scheduler P} {s t : Scheduler P}
  {a : Answer} {l : Label}

theorem stepGoroutine_turns (h : s.stepGoroutine g a=some r) :
    ∃ pc t, r=({g with pc := pc},t) ∧ Turns s g g.pc a pc t := by
  obtain ⟨task,ctx,pc⟩ := g
  cases pc <;> cases a <;> simp only [stepGoroutine,reduceCtorEq] at h
  case select.tick =>
    cases h
    exact ⟨_,_,rfl,.tick⟩
  case select.ctxDone =>
    split at h <;> cases h
    next hc => exact ⟨_,_,rfl,.leave hc⟩
  case gathering.failed =>
    cases h
    exact ⟨_,_,rfl,.gatherFailed⟩
  case gathering.gathered ms =>
    cases ms <;> cases h
    · exact ⟨_,_,rfl,.gatheredNone⟩
    · exact ⟨_,_,rfl,.gatheredSome _ _⟩
  case processing.ok k ms =>
    split at h <;> cases h
    next p hk => exact ⟨_,_,rfl,.process k ms p hk⟩
    next hk => exact ⟨_,_,rfl,.processed k ms hk⟩
  case feeding.ok todo ms =>
    cases todo <;> cases h
    · exact ⟨_,_,rfl,.fed ms⟩
    · exact ⟨_,_,rfl,.feed _ _ _ ms⟩
  case writing.ok k ms =>
    split at h <;> cases h
    next out hk => exact ⟨_,_,rfl,.write k ms out hk⟩
    next hk => exact ⟨_,_,rfl,.written k ms hk⟩
  case locking.ok ms =>
    split at h <;> cases h
    next hm => exact ⟨_,_,rfl,.lock ms hm⟩
  case sending.send ms =>
    split at h
    next hc =>
      cases h
      exact ⟨_,_,rfl,.panic ms hc⟩
    next hc =>
      split at h <;> cases h
      next hroom => exact ⟨_,_,rfl,.send ms (Nat.eq_zero_of_not_pos hc) hroom⟩
  case sending.handoff ms =>
    split at h <;> cases h
    next hc => exact ⟨_,_,rfl,.handoff ms hc.1 (List.isEmpty_iff.mp hc.2)⟩
  case sending.ctxDone ms =>
    split at h <;> cases h
    next hc => exact ⟨_,_,rfl,.unsent ms hc⟩
  case pushSelect.tick =>
    cases h
    exact ⟨_,_,rfl,.pushTick⟩
  case pushSelect.ctxDone =>
    split at h <;> cases h
    next hc => exact ⟨_,_,rfl,.pushLast hc⟩
  case pushing.ok final k acc =>
    split at h
    next agg hk =>
      cases h
      exact ⟨_,_,rfl,.push final k acc agg hk⟩
    next hk =>
      cases acc <;> cases h
      · exact ⟨_,_,rfl,.pushedNone final k hk⟩
      · exact ⟨_,_,rfl,.pushedSome final k _ _ hk⟩
  case resetting.ok final k acc =>
    cases h
    exact ⟨_,_,rfl,.reset final k acc⟩
  case pushWriting.ok final k acc =>
    split at h <;> cases h
    next out hk => exact ⟨_,_,rfl,.pushWrite final k acc out hk⟩
    next hk => exact ⟨_,_,rfl,.pushWritten final k acc hk⟩

/- The steps of `Start` and `Reload` with the mutex locked. -/
inductive Proceeds (s : Scheduler P) : Holder P → Scheduler P → Prop
  | startSpawn (t todo) : Proceeds s (.start (t::todo)) {s.spawn t with mu := some (.start todo)}
  | started : Proceeds s (.start []) {s with mu := none, closer := .enter}
  | cancel (cfg) :
    Proceeds s (.reloadCancel cfg) {s.cancelCurrent with mu := some (.reloadWait cfg)}
  | waited (cfg) : s.live=0 → Proceeds s (.reloadWait cfg) {s with mu := some (.reloadPush cfg 0)}
  | push (cfg k) : k<s.pipe.aggregators.length →
    Proceeds s (.reloadPush cfg k) {s with mu := some (.reloadReset cfg k)}
  | pushedAll (cfg k) : s.pipe.aggregators.length≤k →
    Proceeds s (.reloadPush cfg k) {s with mu := some (.reloadBuild cfg)}
  | reset (cfg k) : Proceeds s (.reloadReset cfg k)
      { s with pipe := {s.pipe with aggregators := s.pipe.aggregators.modify k P.reset},
               mu := some (.reloadPush cfg (k+1))}
  | refuse (cfg err) : rebuild P s.interval cfg=.error err →
    Proceeds s (.reloadBuild cfg) (s.returnReload (some err))
  | restart (cfg pipe) : rebuild P s.interval cfg=.ok pipe →
    s.running → Proceeds s (.reloadBuild cfg)
      {s.newContext with pipe := pipe, mu := some (.reloadSpawn pipe.tasks)}
  | replace (cfg pipe) : rebuild P s.interval cfg=.ok pipe →
    s.running=false → Proceeds s (.reloadBuild cfg) ({s with pipe := pipe}.returnReload none)
  | spawn (t todo) :
    Proceeds s (.reloadSpawn (t::todo)) {s.spawn t with mu := some (.reloadSpawn todo)}
  | restarted : Proceeds s (.reloadSpawn []) (s.returnReload none)

theorem stepHolder_proceeds {hd : Holder P} (h : s.stepHolder hd=some t) : Proceeds s hd t := by
  cases hd with
  | start todo =>
    cases todo <;> cases h
    · exact .started
    · exact .startSpawn _ _
  | reloadCancel cfg =>
    cases h
    exact .cancel cfg
  | reloadWait cfg =>
    simp only [stepHolder] at h
    split at h <;> cases h
    next hl => exact .waited cfg hl
  | reloadPush cfg k =>
    cases h
    split
    next hk => exact .push cfg k hk
    next hk => exact .pushedAll cfg k (Nat.le_of_not_lt hk)
  | reloadReset cfg k =>
    cases h
    exact .reset cfg k
  | reloadBuild cfg =>
    simp only [stepHolder] at h
    split at h
    next err hb =>
      cases h
      exact .refuse cfg err hb
    next pipe hb =>
      split at h <;> cases h
      next hrun => exact .restart cfg pipe hb hrun
      next hrun => exact .replace cfg pipe hb (Bool.eq_false_iff.mpr hrun)
  | reloadSpawn todo =>
    cases todo <;> cases h
    · exact .restarted
    · exact .spawn _ _

inductive Moves (s : Scheduler P) : Label → Scheduler P → Prop
  | start : s.mu=none → s.outCh=none → Moves s .start s.begin
  | callReload (cfg) : Moves s (.callReload cfg) {s with pending := s.pending++[cfg]}
  | lockReload (i cfg) : s.mu=none → s.pending[i]?=some cfg → Moves s (.lockReload i)
      {s with mu := some (.reloadCancel cfg), pending := s.pending.eraseIdx i}
  | callStop : s.stop=.notCalled → s.outCh≠none → Moves s .callStop {s with stop := .locking}
  | lockStop : s.mu=none → s.stop=.locking →
    Moves s .lockStop {s.cancelCurrent with running := false, stop := .waiting}
  | waitStop : s.stop=.waiting → s.live=0 → Moves s .waitStop {s with stop := .returned}
  | holder (hd : Holder P) (t) : s.mu=some hd → s.stepHolder hd=some t → Moves s .holder t
  | goroutine (i a g r) : s.pool[i]?=some g → s.stepGoroutine g a=some r →
    Moves s (.goroutine i a) {r.2 with pool := r.2.pool.set i r.1}.wake
  | closer (t : Scheduler P) : s.stepCloser=some t → Moves s .closer t
  | recv (batch rest) : s.buffer=batch::rest → Moves s .recv {s with buffer := rest}
  | parentDone (ctx) : ctx<s.contexts →
    Moves s (.parentDone ctx) {s with doneContexts := ctx::s.doneContexts}

theorem stepAlive_moves (h : s.stepAlive l=some t) : Moves s l t := by
  cases l with
  | callReload cfg =>
    cases h
    exact .callReload cfg
  | holder =>
    simp only [stepAlive] at h
    split at h
    next hd hm => exact .holder hd t hm h
    next => cases h
  | goroutine i a =>
    simp only [stepAlive] at h
    split at h
    next g hi =>
      split at h <;> cases h
      next r hr => exact .goroutine i a g r hi hr
    next => cases h
  | closer => exact .closer t h
  | waitStop =>
    simp only [stepAlive] at h
    split at h
    next hst =>
      split at h <;> cases h
      next hl => exact .waitStop hst hl
    next => cases h
  | start =>
    simp only [stepAlive] at h
    split at h <;> cases h
    next hm ho => exact .start hm ho
  | lockReload i =>
    simp only [stepAlive] at h
    split at h <;> cases h
    next cfg hm hp => exact .lockReload i cfg hm hp
  | callStop =>
    simp only [stepAlive] at h
    split at h <;> cases h
    next cap hst ho => exact .callStop hst (by rw [ho]; nofun)
  | lockStop =>
    simp only [stepAlive] at h
    split at h <;> cases h
    next hm hst => exact .lockStop hm hst
  | recv =>
    simp only [stepAlive] at h
    split at h <;> cases h
    next batch rest hb => exact .recv batch rest hb
  | parentDone ctx =>
    simp only [stepAlive] at h
    split at h <;> cases h
    next hc => exact .parentDone ctx hc

theorem step_moves (h : s.step l=some t) : Moves s l t := by
  unfold step at h
  split at h
  next => exact stepAlive_moves h
  next => cases h

theorem stepGoroutine_frame (h : s.stepGoroutine g a=some r) : r.1.task=g.task ∧ r.1.ctx=g.ctx ∧
      ∃ pipe buffer crashed, r.2 = {s with pipe := pipe, buffer := buffer, crashed := crashed} := by
  obtain ⟨pc',t,rfl,ht⟩ := stepGoroutine_turns h
  refine ⟨rfl,rfl,?_⟩
  generalize g.pc=pc at ht
  cases ht <;> exact ⟨_,_,_,rfl⟩

theorem stepGoroutine_crashed (h : s.stepGoroutine g a=some r) :
    r.2.crashed=s.crashed ∨ 0<s.closes ∧ a=.send ∧ ∃ metrics, g.pc=.sending metrics := by
  obtain ⟨pc',t,rfl,ht⟩ := stepGoroutine_turns h
  generalize g.pc=pc at ht ⊢
  cases ht with
  | panic metrics hc => exact .inr ⟨hc,rfl,metrics,rfl⟩
  | _ => exact .inl rfl

theorem stepCloser_frame (h : s.stepCloser=some t) : ∃ closer closes crashed,
      t = {s with closer := closer, closes := closes, crashed := crashed} := by
  unfold stepCloser at h
  split at h <;> cases h
  · exact ⟨_,_,_,rfl⟩
  · split <;> exact ⟨_,_,_,rfl⟩
  · exact ⟨_,_,_,rfl⟩

theorem goroutine_not_finished (h : s.stepGoroutine g a=some r) : g.live := by
  obtain ⟨pc',t,rfl,ht⟩ := stepGoroutine_turns h
  unfold Goroutine.live
  generalize g.pc=pc at ht ⊢
  cases ht <;> rfl

theorem live_pos {i : Nat} (hi : s.pool[i]?=some g) (hg : g.live) : 0<s.live :=
  List.countP_pos_iff.mpr ⟨g,List.mem_of_getElem? hi,hg⟩

end Scheduler

/-! ### A small set of plugins

`cpu` is the only input and `all` the only aggregator: it keeps the metrics it is
given. -/

def smallPlugins : Plugins where
  Input := String
  Processor := Unit
  Aggregator := List Metric
  Output := Unit
  apply p metrics := (p,metrics)
  add agg m := agg++[m]
  push agg := agg
  reset _ := []
  write out _ := out
  getInput type := if type="cpu" then some fun _ => .ok "cpu" else none
  getProcessor _ := none
  getAggregator type := if type="all" then some fun _ => .ok [] else none
  getOutput _ := none
  quote s := "\""++s++"\""

def cpuInput : ScheduledInput smallPlugins := ⟨"cpu",1,[]⟩
def cpuMetric : Metric := ⟨"cpu",∅,∅,.gauge⟩
def cpuConfig : ReloadConfig := ⟨[⟨"cpu",none⟩],[],[],[]⟩

end OpsAgent.Collector
