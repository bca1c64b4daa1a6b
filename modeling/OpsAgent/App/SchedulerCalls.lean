import OpsAgent.App.Reloaders

/-!
# Calls on the scheduler of the agent (`app/agent.go`, `collector/reload.go`)

`NewAgent` puts the pointer that `buildScheduler` returns into a field of an interface type. An interface
that holds a nil pointer is not nil.
-/

namespace OpsAgent.App.SchedulerCalls
open OpsAgent.Collector (Plugins Pipeline rebuild buildPlugins smallPlugins)
open List

inductive Interface (T : Type)
  | nil
  | holds (pointer : Option T)

/- A type assertion, which fails for a nil interface only. -/
def Interface.pointer? {T : Type} : Interface T → Option (Option T)
  | .nil => none
  | .holds pointer => some pointer

inductive Method
  | start | stop | reload

structure Call (P : Plugins) where
  method : Method
  receiver : Option (Pipeline P)

structure Agent (P : Plugins) where
  scheduler : Interface (Pipeline P)
  -- the scheduler of the `CollectorReloader`, if there is one
  collectorReloader : Option (Option (Pipeline P))
  calls : List (Call P)

variable {P : Plugins} (interval : Int)

def buildScheduler (cfg : Config) : Except String (Option (Pipeline P)) := do
  let inputs ← buildPlugins P.quote "input" P.getInput (toReloadConfig cfg.collector).inputs
  if inputs.isEmpty then return none
  some <$> rebuild P interval (toReloadConfig cfg.collector)

/- `NewAgent` without an injected scheduler or reloader. -/
def buildAgent (cfg : Config) : Except String (Agent P) :=
  match buildScheduler interval cfg with
  | .error err => .error ("build scheduler: "++err)
  | .ok sched =>
    let scheduler : Interface (Pipeline P) := .holds sched
    .ok ⟨scheduler,scheduler.pointer?,[]⟩

inductive Op
  -- whether the plugin runtime and the plugin gateway have started
  | start (pluginRuntime pluginGateway : Bool)
  -- whether the channel has delivered before the context was done
  | runOnce (collected : Bool)
  -- whether the collector section has changed, and whether the change is rolled back
  | reload (changed rolledBack : Bool)
  | shutdown

def Op.methods : Op → List Method
  | .start pluginRuntime pluginGateway => if pluginRuntime&&pluginGateway then [.start] else []
  | .runOnce collected => if collected then [.start,.stop] else [.start]
  | .reload changed rolledBack => if !changed then [] else if rolledBack then [.reload,.reload] else [.reload]
  | .shutdown => [.stop]

namespace Agent

/- `a.scheduler` is called if it is not nil. -/
def receiver? (a : Agent P) : Method → Option (Option (Pipeline P))
  | .reload => a.collectorReloader
  | .start | .stop => a.scheduler.pointer?

/- After a call without a receiver, which panics, there are no others. -/
def call (a : Agent P) (m : Method) : Agent P := match a.receiver? m with
  | none => a
  | some p => if a.calls.any fun c => c.receiver.isNone then a else {a with calls := a.calls++[⟨m,p⟩]}
def run (a : Agent P) (ops : List Op) : Agent P := (ops.flatMap Op.methods).foldl call a

structure Sound (a : Agent P) : Prop where
  receiver : ∀ m, ∃ pipe, a.receiver? m=some (some pipe)
  calls : ∀ c∈a.calls, c.receiver≠none

variable {a : Agent P}

theorem sound_call (h : a.Sound) (m : Method) : (a.call m).Sound := by
  obtain ⟨pipe,hpipe⟩ := h.receiver m
  rw [call,hpipe]
  dsimp only
  split
  · exact h
  · exact ⟨h.receiver,forall_mem_append.mpr ⟨h.calls,forall_mem_singleton.mpr nofun⟩⟩

theorem sound_foldl (h : a.Sound) (ms : List Method) : (ms.foldl call a).Sound := by
  induction ms generalizing a with
  | nil => exact h
  | cons m ms ih => exact ih (sound_call h m)

end Agent

theorem inputs_eq_nil {cs} {inputs : List _}
    (h : buildPlugins P.quote "input" P.getInput cs=.ok inputs) : inputs=[] ↔ cs=[] := by
  cases cs with
  | nil =>
    cases h
    exact iff_of_true rfl rfl
  | cons c cs =>
    refine iff_of_false ?_ nofun
    rintro rfl
    unfold buildPlugins at h
    split at h
    · cases h
    · split at h
      · cases h
      · cases hrest : buildPlugins P.quote "input" P.getInput cs <;> rw [hrest] at h <;> cases h

theorem buildScheduler_ok {cfg : Config} {sched : Option (Pipeline P)}
    (h : buildScheduler interval cfg=.ok sched) : sched=none ↔ cfg.collector.inputs.getD []=[] := by
  have hin : (toReloadConfig cfg.collector).inputs=[] ↔ cfg.collector.inputs.getD []=[] := map_eq_nil_iff
  unfold buildScheduler at h
  cases hi : buildPlugins P.quote "input" P.getInput (toReloadConfig cfg.collector).inputs with
  | error =>
    rw [hi] at h
    cases h
  | ok inputs =>
    rw [← hin,← inputs_eq_nil hi]
    rw [hi] at h
    cases inputs with
    | nil =>
      cases h
      exact iff_of_true rfl rfl
    | cons =>
      cases hbuild : rebuild P interval (toReloadConfig cfg.collector) <;> rw [hbuild] at h <;> cases h
      exact iff_of_false nofun nofun

/-- Whatever is done with an agent, the methods of its scheduler are called on a scheduler that exists
exactly if the configuration has an input. -/
theorem scheduler_not_nil_iff (P : Plugins) (interval : Int) (cfg : Config) (a : Agent P)
    (ha : buildAgent interval cfg=.ok a) :
    (∀ ops : List Op, ∀ c∈(a.run ops).calls, c.receiver≠none) ↔ cfg.collector.inputs.getD []≠[] := by
  unfold buildAgent at ha
  split at ha
  · cases ha
  next sched hsched =>
    cases ha
    rw [Ne,← buildScheduler_ok interval hsched]
    constructor
    · rintro h rfl
      exact h [.shutdown] ⟨.stop,none⟩ mem_cons_self rfl
    · intro hne ops
      obtain ⟨pipe,rfl⟩ := Option.ne_none_iff_exists'.mp hne
      refine (Agent.sound_foldl ⟨fun m => ⟨pipe,?_⟩,forall_mem_nil _⟩ _).calls
      cases m <;> rfl

def oneInput : Config := {Config.plain with collector.inputs := some [⟨"cpu",none⟩]}

theorem scheduler_not_nil_cpu : oneInput.validate=none ∧ ∃ a : Agent smallPlugins,
    buildAgent 1 oneInput=.ok a ∧ ∀ ops, ∀ c∈(a.run ops).calls, c.receiver≠none :=
  ⟨by decide,_,rfl,(scheduler_not_nil_iff smallPlugins 1 oneInput _ rfl).mpr (by decide)⟩

theorem scheduler_nil_called : Config.plain.validate=none ∧ ∃ a : Agent smallPlugins,
    buildAgent 1 .plain=.ok a ∧ (a.run [.start true true]).calls=[⟨.start,none⟩] ∧
      (a.run [.runOnce true]).calls=[⟨.start,none⟩] ∧ (a.run [.reload true false]).calls=[⟨.reload,none⟩] ∧
      (a.run [.shutdown]).calls=[⟨.stop,none⟩] := ⟨by decide,_,rfl,rfl,rfl,rfl,rfl⟩

end OpsAgent.App.SchedulerCalls
