import OpsAgent.Collector.Metric
import OpsAgent.Config.Types

/-!
# The collector pipeline and how `Reload` builds it (`collector/scheduler.go`)

`Plugins` has the states of each kind of plugin and the effect of its methods; `DefaultRegistry` is
a lookup that gives the factory followed by `Init`.
-/

namespace OpsAgent.Collector

structure Plugins where
  (Input Processor Aggregator Output : Type)
  apply : Processor → List Metric → Processor × List Metric
  add : Aggregator → Metric → Aggregator
  push : Aggregator → List Metric
  reset : Aggregator → Aggregator
  write : Output → List Metric → Output
  getInput : String → Option (AnyMap → Except String Input)
  getProcessor : String → Option (AnyMap → Except String Processor)
  getAggregator : String → Option (AnyMap → Except String Aggregator)
  getOutput : String → Option (AnyMap → Except String Output)
  -- the verb `%q` of `fmt`
  quote : String → String

structure PluginConfig where
  type : String
  config : AnyMap

structure ReloadConfig where
  (inputs processors aggregators outputs : List PluginConfig)

structure ScheduledInput (P : Plugins) where
  input : P.Input
  interval : Int
  tags : List (String × String)

structure Pipeline (P : Plugins) where
  inputs : List (ScheduledInput P)
  processors : List P.Processor
  aggregators : List P.Aggregator
  outputs : List P.Output

def buildPlugins {α : Type} (quote : String → String) (what : String)
    (get : String → Option (AnyMap → Except String α)) : List PluginConfig → Except String (List α)
  | [] => .ok []
  | c::cs => match get c.type with
    | none => .error ("unknown "++what++" type: "++quote c.type)
    | some init => match init c.config with
      | .error err => .error ("init "++what++" "++quote c.type++": "++err)
      | .ok x => (buildPlugins quote what get cs).map (x :: ·)

def rebuild (P : Plugins) (interval : Int) (cfg : ReloadConfig) : Except String (Pipeline P) := do
  let inputs ← buildPlugins P.quote "input" P.getInput cfg.inputs
  let processors ← buildPlugins P.quote "processor" P.getProcessor cfg.processors
  let aggregators ← buildPlugins P.quote "aggregator" P.getAggregator cfg.aggregators
  let outputs ← buildPlugins P.quote "output" P.getOutput cfg.outputs
  return { inputs := inputs.map fun input => ⟨input,interval,[]⟩
           processors, aggregators, outputs}

def Buildable {α : Type} (get : String → Option (AnyMap → Except String α))
    (cs : List PluginConfig) : Prop :=
  ∀ c∈cs, ∃ init x, get c.type=some init ∧ init c.config=.ok x

theorem buildPlugins_ok_iff {α : Type} (quote : String → String) (what : String)
    (get : String → Option (AnyMap → Except String α)) (cs : List PluginConfig) :
    (∃ xs, buildPlugins quote what get cs=.ok xs) ↔ Buildable get cs := by
  induction cs with
  | nil => exact ⟨fun _ => nofun,fun _ => ⟨[],rfl⟩⟩
  | cons c cs ih =>
    unfold buildPlugins
    cases hg : get c.type with
    | none =>
      refine ⟨nofun,fun h => ?_⟩
      obtain ⟨init,x,hi,-⟩ := h c List.mem_cons_self
      cases hg.symm.trans hi
    | some init =>
      cases hx : init c.config with
      | error err =>
        refine ⟨by simp [hx],fun h => ?_⟩
        obtain ⟨init',x,hi,hok⟩ := h c List.mem_cons_self
        rw [hg,Option.some.injEq] at hi
        rw [← hi,hx] at hok
        cases hok
      | ok x =>
        have hrest : (∃ xs, (buildPlugins quote what get cs).map (x :: ·)=.ok xs) ↔
            ∃ xs, buildPlugins quote what get cs=.ok xs := by
          cases buildPlugins quote what get cs <;> simp [Except.map]
        simp only [hx,hrest,ih]
        constructor
        · intro h c' hmem
          rcases List.mem_cons.mp hmem with rfl | hmem
          · exact ⟨init,x,hg,hx⟩
          · exact h c' hmem
        · intro h c' hmem
          exact h c' (List.mem_cons_of_mem c hmem)

structure ReloadConfig.Valid (P : Plugins) (cfg : ReloadConfig) : Prop where
  inputs : Buildable P.getInput cfg.inputs
  processors : Buildable P.getProcessor cfg.processors
  aggregators : Buildable P.getAggregator cfg.aggregators
  outputs : Buildable P.getOutput cfg.outputs

theorem rebuild_ok_iff (P : Plugins) (interval : Int) (cfg : ReloadConfig) :
    (∃ pipe, rebuild P interval cfg=.ok pipe) ↔ cfg.Valid P := by
  have hv : cfg.Valid P ↔ Buildable P.getInput cfg.inputs ∧ Buildable P.getProcessor cfg.processors ∧
      Buildable P.getAggregator cfg.aggregators ∧ Buildable P.getOutput cfg.outputs :=
    ⟨fun h => ⟨h.inputs,h.processors,h.aggregators,h.outputs⟩,
      fun h => ⟨h.1,h.2.1,h.2.2.1,h.2.2.2⟩⟩
  rw [hv,← buildPlugins_ok_iff P.quote "input",← buildPlugins_ok_iff P.quote "processor",
    ← buildPlugins_ok_iff P.quote "aggregator",← buildPlugins_ok_iff P.quote "output"]
  unfold rebuild
  cases buildPlugins P.quote "input" P.getInput cfg.inputs <;>
    cases buildPlugins P.quote "processor" P.getProcessor cfg.processors <;>
    cases buildPlugins P.quote "aggregator" P.getAggregator cfg.aggregators <;>
    cases buildPlugins P.quote "output" P.getOutput cfg.outputs <;>
    simp [bind,Except.bind,pure,Except.pure]

end OpsAgent.Collector
