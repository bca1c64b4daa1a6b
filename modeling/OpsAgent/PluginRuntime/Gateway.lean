import OpsAgent.Lib.Exec
import OpsAgent.Lib.Pool

/-!
# The plugin gateway (`pluginruntime/gateway.go`, `pluginruntime/watcher.go`)

Each call, each callback of the watcher and the health loop moves from one access of shared data to the
next. An entry of the map is a pointer, here an index: an operation goes on with it after it has been
replaced. The lock is held across steps only while a removed plugin is stopped.
-/

namespace OpsAgent.PluginRuntime
open Option

inductive PluginStatus where
  | starting | running | stopped | error | disabled
  deriving DecidableEq

/-- `sanitizePluginName`: `^[a-zA-Z0-9][a-zA-Z0-9_-]*$`. -/
def validPluginName (name : String) : Bool :=
  match name.toList with
  | [] => false
  | c::cs => c.isAlphanum&&cs.all fun d => d.isAlphanum||d == '_' || d == '-'

structure PluginManifest where
  name : String
  taskTypes : List String
  deriving DecidableEq

/- A process is named by its position; `M` and `P` are what is known of manifests and processes. -/
structure ManagedPlugin (M : Type := PluginManifest) (P : Type := Nat) where
  manifest : M
  process : Option P
  client : Bool
  status : PluginStatus
  restartCount : Int
  deriving DecidableEq

structure ManagedProcess where
  name : String
  alive : Bool
  deriving DecidableEq

inductive Callback where
  | loaded (name : String) (taskTypes : List String)
  | unloaded (name : String) (taskTypes : List String)

structure Gateway where
  maxRestarts : Int
  -- all entries there ever were; the map has the current ones
  entries : List ManagedPlugin
  plugins : String → Option Nat
  -- all processes there ever were
  processes : List ManagedProcess
  -- `g.mu` is held by the callback for a removed manifest
  (locked cancelled : Bool)
  -- the goroutines that `Stop` waits for
  (health watcher : Bool)
  -- the calls of `onLoaded` and `onUnloaded`, the last one first
  calls : List Callback

namespace Gateway

def setEntry (g : Gateway) (e : Nat) (p : ManagedPlugin) : Gateway :=
  {g with entries := g.entries.set e p}
def lookup (g : Gateway) (name : String) : Option (Nat × ManagedPlugin) :=
  (g.plugins name).bind fun e => g.entries[e]?.map fun p => (e,p)
def current (g : Gateway) : List (String × Nat) :=
  (List.range g.entries.length).filterMap fun e =>
    g.entries[e]?.bind fun p =>
      if g.plugins p.manifest.name=some e then some (p.manifest.name,e) else none
def startProcess (g : Gateway) (m : PluginManifest) : Gateway :=
  {g with processes := g.processes++[⟨m.name,true⟩]}
def killProcess (g : Gateway) (pid : Nat) : Gateway :=
  {g with processes := g.processes.modify pid fun q => {q with alive := false} }
def setPlugin (g : Gateway) (name : String) (e : Option Nat) : Gateway :=
  {g with plugins := fun n => if n=name then e else g.plugins n}

/-- The locked part of `loadPlugin`, which keeps the restart count of the entry that it
replaces. -/
def publish (g : Gateway) (m : PluginManifest) (pid : Nat) : Gateway :=
  let mp : ManagedPlugin :=
    { manifest := m
      process := some pid
      client := true
      status := .running
      restartCount := (g.lookup m.name).elim 0 fun existing => existing.2.restartCount}
  {g.setPlugin m.name (some g.entries.length) with entries := g.entries++[mp]}

def call (g : Gateway) (c : Callback) : Gateway := {g with calls := c::g.calls}

end Gateway

inductive AfterStop where
  | reload (m : PluginManifest)
  | disable | remove
  | stop (rest : List (String × Nat))
  | restart (m : PluginManifest) (rest : List (String × Nat))
  deriving DecidableEq

inductive AfterLoad where
  | caller
  | start (rest : List PluginManifest)
  | health (rest : List (String × Nat))
  deriving DecidableEq

inductive Pc where
  | reload (name : String)
  | enable (name : String)
  | enableCheck (name : String) (e : Nat)
  | disable (name : String)
  | setDisabled (name : String) (e : Nat)
  | remove (name : String)
  | delete (name : String) (e : Nat)
  -- `stopPlugin`
  | stopPlugin (name : String) (e : Nat) (k : AfterStop)
  | killing (name : String) (e : Nat) (pid : Option Nat) (taskTypes : List String) (k : AfterStop)
  -- `loadPlugin`
  | loadPlugin (m : PluginManifest) (k : AfterLoad)
  | waitForPlugin (m : PluginManifest) (pid : Nat) (k : AfterLoad)
  | abort (m : PluginManifest) (pid : Nat) (k : AfterLoad)
  | loaded (m : PluginManifest) (k : AfterLoad)
  -- `Start`
  | starting (rest : List PluginManifest)
  -- `Stop`
  | stop | stopCopy
  | stopNext (rest : List (String × Nat))
  | stopWait | stopClear | stopped
  -- the health loop and `healthCheckAll`
  | idle
  | checkNext (rest : List (String × Nat))
  | ping (name : String) (e : Nat) (rest : List (String × Nat))
  | backoff (m : PluginManifest) (rest : List (String × Nat))
  | markError (name : String) (rest : List (String × Nat))
  | setError (name : String) (e : Nat) (rest : List (String × Nat))
  | done
  deriving DecidableEq

def AfterStop.next (name : String) (e : Nat) : AfterStop → Pc
  | .reload m => .loadPlugin m .caller
  | .disable => .setDisabled name e
  | .remove => .delete name e
  | .stop rest => .stopNext rest
  | .restart m rest => .backoff m rest

def AfterLoad.next : AfterLoad → Pc
  | .caller => .done
  | .start rest => .starting rest
  | .health rest => .checkNext rest
def AfterLoad.failed (m : PluginManifest) : AfterLoad → Pc
  | .caller => .done
  | .start rest => .starting rest
  | .health rest => .markError m.name rest

inductive Answer where
  | ok | failed
  | pick (k : Nat)
  deriving DecidableEq

namespace Gateway

/-- `stopPlugin` up to the unlocking of the entry. -/
def stopPlugin (g : Gateway) (name : String) (e : Nat) (k : AfterStop) : Option (Gateway × Pc) :=
  g.entries[e]?.map fun p =>
    if p.status=.stopped ∨ p.status=.disabled then (g,k.next name e)
    else (g.setEntry e {p with status := .stopped, client := false, process := none},
      .killing name e p.process p.manifest.taskTypes k)

def checkEntry (g : Gateway) (name : String) (e : Nat) (rest : List (String × Nat)) :
    Option (Gateway × Pc) :=
  g.entries[e]?.map fun p =>
    (g,if p.status=.running ∧ p.client=true then .ping name e rest else .checkNext rest)
def shouldRestart (g : Gateway) (p : ManagedPlugin) : Bool := p.restartCount<g.maxRestarts

def checkFailed (g : Gateway) (name : String) (e : Nat) (rest : List (String × Nat)) :
    Option (Gateway × Pc) :=
  g.entries[e]?.map fun p =>
    (g,if g.shouldRestart p then .stopPlugin name e (.restart p.manifest rest)
      else .markError name rest)

def setStatus (g : Gateway) (e : Nat) (status : PluginStatus) (next : Pc) : Option (Gateway × Pc) :=
  g.entries[e]?.map fun p => (g.setEntry e {p with status := status},next)
def whenFree (g : Gateway) (r : Gateway × Pc) : Option (Gateway × Pc) :=
  if g.locked then none else some r

def turn (g : Gateway) : Pc → Answer → Option (Gateway × Pc)
  | .reload name, .ok => g.whenFree (g,(g.lookup name).elim .done fun found =>
      .stopPlugin name found.1 (.reload found.2.manifest))
  | .enable name, .ok => g.whenFree (g,(g.lookup name).elim .done fun found =>
      .enableCheck name found.1)
  | .enableCheck _ e, .ok => g.entries[e]?.map fun p =>
      (g,if p.status=.disabled then .loadPlugin p.manifest .caller else .done)
  | .disable name, .ok => g.whenFree (g,(g.lookup name).elim .done fun found =>
      .stopPlugin name found.1 .disable)
  | .setDisabled _ e, .ok => g.setStatus e .disabled .done
  | .remove name, .ok => g.whenFree ((g.lookup name).elim (g,.done) fun found =>
      ({g with locked := true},.stopPlugin name found.1 .remove))
  | .delete name _, .ok => some ({g.setPlugin name none with locked := false},.done)
  | .stopPlugin name e k, .ok => g.stopPlugin name e k
  | .killing name e pid taskTypes k, .ok =>
    some ((pid.elim g g.killProcess).call (.unloaded name taskTypes),k.next name e)
  | .loadPlugin m k, .ok => some (g.startProcess m,.waitForPlugin m g.processes.length k)
  | .loadPlugin m k, .failed => some (g,k.failed m)
  | .waitForPlugin m pid k, .ok => g.whenFree (g.publish m pid,.loaded m k)
  | .waitForPlugin m pid k, .failed => some (g,.abort m pid k)
  | .abort m pid k, .ok => some (g.killProcess pid,k.failed m)
  | .loaded m k, .ok => some (g.call (.loaded m.name m.taskTypes),k.next)
  | .starting (m::rest), .ok => some (g,.loadPlugin m (.start rest))
  -- the answer is that of `startWatcher`
  | .starting [], .ok => some ({g with health := true, watcher := true},.idle)
  | .starting [], .failed => some ({g with health := true},.idle)
  | .stop, .ok => some ({g with cancelled := true},.stopCopy)
  | .stopCopy, .ok => g.whenFree (g,.stopNext g.current)
  | .stopNext [], .ok => some (g,.stopWait)
  | .stopNext rest, .pick k => rest[k]?.map fun next =>
      (g,.stopPlugin next.1 next.2 (.stop (rest.eraseIdx k)))
  | .stopWait, .ok => if g.health||g.watcher then none else some (g,.stopClear)
  | .stopClear, .ok => g.whenFree ({g with plugins := fun _ => none},.stopped)
  -- a tick, or the end of the context
  | .idle, .ok => g.whenFree (g,.checkNext g.current)
  | .idle, .failed => if g.cancelled then some ({g with health := false},.done) else none
  | .checkNext [], .ok => some (g,.idle)
  | .checkNext rest, .pick k => rest[k]?.bind fun next =>
      g.checkEntry next.1 next.2 (rest.eraseIdx k)
  | .ping _ _ rest, .ok => some (g,.checkNext rest)
  | .ping name e rest, .failed => g.checkFailed name e rest
  -- the backoff has passed, or the context is done
  | .backoff m rest, .ok => some (g,.loadPlugin m (.health rest))
  | .backoff _ _, .failed => if g.cancelled then some (g,.idle) else none
  | .markError name rest, .ok => g.whenFree (g,(g.lookup name).elim (.checkNext rest) fun found =>
      .setError name found.1 rest)
  | .setError _ e rest, .ok => g.setStatus e .error (.checkNext rest)
  | _, _ => none

end Gateway

def Pc.fresh : Pc → Bool
  | .reload _ | .enable _ | .enableCheck _ _ | .disable _ | .remove _ => true
  | _ => false

inductive Turns (g : Gateway) : Pc → Answer → Gateway → Pc → Prop where
  | finish {pc} (hpc : pc.fresh) : Turns g pc .ok g .done
  | reload {name e p} (hfree : g.locked=false) (hl : g.lookup name=some (e,p)) :
      Turns g (.reload name) .ok g (.stopPlugin name e (.reload p.manifest))
  | enable {name e p} (hfree : g.locked=false) (hl : g.lookup name=some (e,p)) :
      Turns g (.enable name) .ok g (.enableCheck name e)
  | enabled {name e p} (he : g.entries[e]?=some p) (hs : p.status=.disabled) :
      Turns g (.enableCheck name e) .ok g (.loadPlugin p.manifest .caller)
  | disable {name e p} (hfree : g.locked=false) (hl : g.lookup name=some (e,p)) :
      Turns g (.disable name) .ok g (.stopPlugin name e .disable)
  | setDisabled {name e p} (he : g.entries[e]?=some p) :
      Turns g (.setDisabled name e) .ok (g.setEntry e {p with status := .disabled}) .done
  | remove {name e p} (hfree : g.locked=false) (hl : g.lookup name=some (e,p)) :
      Turns g (.remove name) .ok {g with locked := true} (.stopPlugin name e .remove)
  | delete {name e} :
      Turns g (.delete name e) .ok {g.setPlugin name none with locked := false} .done
  | stopAgain {name e k p} (he : g.entries[e]?=some p)
      (hs : p.status=.stopped ∨ p.status=.disabled) :
      Turns g (.stopPlugin name e k) .ok g (k.next name e)
  | stopPlugin {name e k p} (he : g.entries[e]?=some p)
      (hs : ¬ (p.status=.stopped ∨ p.status=.disabled)) : Turns g (.stopPlugin name e k) .ok
        (g.setEntry e {p with status := .stopped, client := false, process := none})
        (.killing name e p.process p.manifest.taskTypes k)
  | killed {name e pid taskTypes k} : Turns g (.killing name e pid taskTypes k) .ok
        ((pid.elim g g.killProcess).call (.unloaded name taskTypes)) (k.next name e)
  | started {m k} :
      Turns g (.loadPlugin m k) .ok (g.startProcess m) (.waitForPlugin m g.processes.length k)
  | loadFailed {m k} : Turns g (.loadPlugin m k) .failed g (k.failed m)
  | publish {m pid k} (hfree : g.locked=false) :
      Turns g (.waitForPlugin m pid k) .ok (g.publish m pid) (.loaded m k)
  | waitFailed {m pid k} : Turns g (.waitForPlugin m pid k) .failed g (.abort m pid k)
  | aborted {m pid k} : Turns g (.abort m pid k) .ok (g.killProcess pid) (k.failed m)
  | loaded {m k} : Turns g (.loaded m k) .ok (g.call (.loaded m.name m.taskTypes)) k.next
  | startNext {m rest} : Turns g (.starting (m::rest)) .ok g (.loadPlugin m (.start rest))
  | startDone {a watcher} :
      Turns g (.starting []) a {g with health := true, watcher := watcher} .idle
  | stop : Turns g .stop .ok {g with cancelled := true} .stopCopy
  | stopCopy (hfree : g.locked=false) : Turns g .stopCopy .ok g (.stopNext g.current)
  | stopNext {rest k name e} (hk : rest[k]?=some (name,e)) :
      Turns g (.stopNext rest) (.pick k) g (.stopPlugin name e (.stop (rest.eraseIdx k)))
  | stopEnd : Turns g (.stopNext []) .ok g .stopWait
  | stopWait (hh : g.health=false) (hw : g.watcher=false) : Turns g .stopWait .ok g .stopClear
  | stopClear (hfree : g.locked=false) :
      Turns g .stopClear .ok {g with plugins := fun _ => none} .stopped
  | tick (hfree : g.locked=false) : Turns g .idle .ok g (.checkNext g.current)
  | healthDone (hc : g.cancelled) : Turns g .idle .failed {g with health := false} .done
  | roundEnd : Turns g (.checkNext []) .ok g .idle
  | check {rest k name e p} (hk : rest[k]?=some (name,e)) (he : g.entries[e]?=some p)
      (hs : p.status=.running) (hc : p.client) :
      Turns g (.checkNext rest) (.pick k) g (.ping name e (rest.eraseIdx k))
  | skip {rest k} : Turns g (.checkNext rest) (.pick k) g (.checkNext (rest.eraseIdx k))
  | answered {name e rest} : Turns g (.ping name e rest) .ok g (.checkNext rest)
  | restart {name e rest p} (he : g.entries[e]?=some p) (hr : g.shouldRestart p) :
      Turns g (.ping name e rest) .failed g (.stopPlugin name e (.restart p.manifest rest))
  | giveUp {name e rest p} (he : g.entries[e]?=some p) (hr : g.shouldRestart p=false) :
      Turns g (.ping name e rest) .failed g (.markError name rest)
  | backoff {m rest} : Turns g (.backoff m rest) .ok g (.loadPlugin m (.health rest))
  | backoffDone {m rest} (hc : g.cancelled) : Turns g (.backoff m rest) .failed g .idle
  | markError {name rest e p} (hfree : g.locked=false) (hl : g.lookup name=some (e,p)) :
      Turns g (.markError name rest) .ok g (.setError name e rest)
  | markMissing {name rest} : Turns g (.markError name rest) .ok g (.checkNext rest)
  | setError {name e rest p} (he : g.entries[e]?=some p) :
      Turns g (.setError name e rest) .ok (g.setEntry e {p with status := .error}) (.checkNext rest)

namespace Gateway

theorem whenFree_eq_some {g : Gateway} {r r' : Gateway × Pc} (h : g.whenFree r=some r') :
    g.locked=false ∧ r=r' := by
  unfold whenFree at h
  split at h
  · cases h
  · rename_i hl
    exact ⟨Bool.eq_false_iff.mpr hl,some.inj h⟩

variable {name : String}

theorem lookup_elim {α : Type} {g : Gateway} {missing r : α}
    {found : Nat × ManagedPlugin → α} (h : (g.lookup name).elim missing found=r) :
    r=missing ∨ ∃ e p, g.lookup name=some (e,p) ∧ r=found (e,p) := by
  cases hl : g.lookup name with
  | none =>
    rw [hl] at h
    exact .inl h.symm
  | some ep =>
    rw [hl] at h
    exact .inr ⟨ep.1,ep.2,rfl,h.symm⟩

variable {g g' : Gateway} {pc' : Pc}
  {e : Nat} {rest : List (String × Nat)}

theorem turns_stopPlugin {k : AfterStop}
    (h : g.stopPlugin name e k=some (g',pc')) : Turns g (.stopPlugin name e k) .ok g' pc' := by
  obtain ⟨p,he,hp⟩ := map_eq_some_iff.mp h
  split at hp
  · cases hp
    exact .stopAgain he ‹_›
  · cases hp
    exact .stopPlugin he ‹_›

theorem turns_checkNext {k : Nat}
    (h : (rest[k]?.bind fun next => g.checkEntry next.1 next.2 (rest.eraseIdx k)) =
      some (g',pc')) : Turns g (.checkNext rest) (.pick k) g' pc' := by
  obtain ⟨next,hk,hn⟩ := bind_eq_some_iff.mp h
  obtain ⟨p,he,hp⟩ := map_eq_some_iff.mp hn
  cases hp
  split
  · rename_i hs
    exact .check hk he hs.1 hs.2
  · exact .skip

theorem turns_ping_failed
    (h : g.checkFailed name e rest=some (g',pc')) : Turns g (.ping name e rest) .failed g' pc' := by
  obtain ⟨p,he,hp⟩ := map_eq_some_iff.mp h
  cases hp
  split
  · exact .restart he ‹_›
  · exact .giveUp he (Bool.eq_false_iff.mpr ‹_›)

theorem turns_enableCheck (h : (g.entries[e]?.map fun p =>
      (g,if p.status=.disabled then Pc.loadPlugin p.manifest .caller else .done)) =
        some (g',pc')) : Turns g (.enableCheck name e) .ok g' pc' := by
  obtain ⟨p,he,hp⟩ := map_eq_some_iff.mp h
  cases hp
  split
  · exact .enabled he ‹_›
  · exact .finish rfl

theorem turns_of_lookup {pc missing : Pc} {found : Nat × ManagedPlugin → Pc}
    (h : g.whenFree (g,(g.lookup name).elim missing found)=some (g',pc'))
    (hmissing : Turns g pc .ok g missing) (hfound : ∀ e p, g.locked=false → g.lookup name=some (e,p) →
      Turns g pc .ok g (found (e,p))) : Turns g pc .ok g' pc' := by
  obtain ⟨hfree,hr⟩ := whenFree_eq_some h
  cases hr
  rcases lookup_elim (rfl : (g.lookup name).elim missing found=_) with hm | ⟨e,p,hl,hf⟩
  · rw [hm]
    exact hmissing
  · rw [hf]
    exact hfound e p hfree hl

theorem turns_remove
    (h : g.whenFree ((g.lookup name).elim (g,.done) fun found =>
      ({g with locked := true},.stopPlugin name found.1 .remove))=some (g',pc')) :
    Turns g (.remove name) .ok g' pc' := by
  obtain ⟨hfree,hr⟩ := whenFree_eq_some h
  rcases lookup_elim hr with hm | ⟨e,p,hl,hf⟩
  · cases hm
    exact .finish rfl
  · cases hf
    exact .remove hfree hl

theorem turns_of_turn {pc : Pc} {a : Answer} (h : g.turn pc a=some (g',pc')) : Turns g pc a g' pc' := by
  unfold turn at h
  split at h
  case _ => exact turns_of_lookup h (.finish rfl) fun _ _ => .reload
  case _ => exact turns_of_lookup h (.finish rfl) fun _ _ => .enable
  case _ => exact turns_enableCheck h
  case _ => exact turns_of_lookup h (.finish rfl) fun _ _ => .disable
  case _ =>
    obtain ⟨p,he,hp⟩ := map_eq_some_iff.mp h
    cases hp
    exact .setDisabled he
  case _ => exact turns_remove h
  case _ => cases h; exact .delete
  case _ => exact turns_stopPlugin h
  case _ => cases h; exact .killed
  case _ => cases h; exact .started
  case _ => cases h; exact .loadFailed
  case _ =>
    obtain ⟨hfree,hr⟩ := whenFree_eq_some h
    cases hr
    exact .publish hfree
  case _ => cases h; exact .waitFailed
  case _ => cases h; exact .aborted
  case _ => cases h; exact .loaded
  case _ => cases h; exact .startNext
  case _ => cases h; exact .startDone
  case _ => cases h; exact .startDone
  case _ => cases h; exact .stop
  case _ =>
    obtain ⟨hfree,hr⟩ := whenFree_eq_some h
    cases hr
    exact .stopCopy hfree
  case _ => cases h; exact .stopEnd
  case _ =>
    obtain ⟨next,hk,hn⟩ := map_eq_some_iff.mp h
    cases hn
    exact .stopNext hk
  case _ =>
    split at h
    · cases h
    · cases h
      rename_i hb
      simp only [Bool.or_eq_true,not_or,Bool.not_eq_true] at hb
      exact .stopWait hb.1 hb.2
  case _ =>
    obtain ⟨hfree,hr⟩ := whenFree_eq_some h
    cases hr
    exact .stopClear hfree
  case _ =>
    obtain ⟨hfree,hr⟩ := whenFree_eq_some h
    cases hr
    exact .tick hfree
  case _ =>
    split at h
    · cases h
      exact .healthDone ‹_›
    · cases h
  case _ => cases h; exact .roundEnd
  case _ => exact turns_checkNext h
  case _ => cases h; exact .answered
  case _ => exact turns_ping_failed h
  case _ => cases h; exact .backoff
  case _ =>
    split at h
    · cases h
      exact .backoffDone ‹_›
    · cases h
  case _ => exact turns_of_lookup h .markMissing fun _ _ => .markError
  case _ =>
    obtain ⟨p,he,hp⟩ := map_eq_some_iff.mp h
    cases hp
    exact .setError he
  case _ => cases h

end Gateway

inductive Operation where
  | reload (name : String)
  | enable (name : String)
  | disable (name : String)
  | stop

def Operation.pc : Operation → Pc
  | .reload name => .reload name
  | .enable name => .enable name
  | .disable name => .disable name
  | .stop => .stop

inductive Change where
  | written | removed

def Change.pc (name : String) : Change → Pc
  | .written => .reload name
  | .removed => .remove name

inductive Label where
  | call (op : Operation)
  | run (i : Nat) (a : Answer)
  -- the watcher handles a change, and the timer that it has set runs out
  | fsEvent (name : String) (c : Change)
  | fire (name : String)
  | watcherDone | parentDone
  -- a process exits by itself
  | exit (pid : Nat)

structure System where
  g : Gateway
  threads : List Pc
  timers : List (String × Change)

namespace System

def step (s : System) : Label → Option System
  | .call op => some {s with threads := s.threads++[op.pc]}
  | .run i a => s.threads[i]?.bind fun pc =>
      (s.g.turn pc a).map fun r => {s with g := r.1, threads := s.threads.set i r.2}
  | .fsEvent name c =>
    if s.g.watcher then
      some {s with timers := (name,c)::s.timers.filter fun t => t.1 != name}
    else none
  | .fire name => (s.timers.lookup name).map fun c =>
      { s with
        threads := s.threads++[c.pc name]
        timers := s.timers.filter fun t => t.1 != name}
  | .watcherDone =>
    if s.g.cancelled then some {s with g := {s.g with watcher := false} } else none
  | .parentDone => some {s with g := {s.g with cancelled := true} }
  | .exit pid => some {s with g := s.g.killProcess pid}

/-- `NewGateway`, and `Start` with the manifests that it has discovered, or without
them if there is no plugins directory or it cannot be read. -/
def start (maxRestarts : Int) (manifests : Option (List PluginManifest)) : System where
  g :=
    { maxRestarts := if maxRestarts≤0 then 3 else maxRestarts
      entries := []
      plugins := fun _ => none
      processes := []
      locked := false
      cancelled := false
      health := false
      watcher := false
      calls := []}
  threads := (manifests.map Pc.starting).toList
  timers := []

end System

def Label.quiet : Label → Bool
  | .fsEvent _ _ | .watcherDone | .parentDone => true
  | _ => false

inductive Moves (s : System) : Label → System → Prop where
  | call {op} : Moves s (.call op) {s with threads := s.threads++[op.pc]}
  | fire {name timers} {c : Change} :
      Moves s (.fire name) {s with threads := s.threads++[c.pc name], timers := timers}
  | run {i a pc g' pc'} (hi : s.threads[i]?=some pc) (ht : Turns s.g pc a g' pc') :
      Moves s (.run i a) {s with g := g', threads := s.threads.set i pc' }
  | flags {l watcher cancelled timers} (hl : l.quiet) : Moves s l { s with
        g := {s.g with watcher := watcher, cancelled := cancelled}, timers := timers}
  | exit {pid} : Moves s (.exit pid) {s with g := s.g.killProcess pid}

theorem moves_of_step {s t : System} {l : Label} (h : s.step l=some t) : Moves s l t := by
  unfold System.step at h
  split at h
  case _ =>
    cases h
    exact .call
  case _ =>
    obtain ⟨pc,hi,hr⟩ := bind_eq_some_iff.mp h
    obtain ⟨r,ht,hr⟩ := map_eq_some_iff.mp hr
    cases hr
    exact .run hi (Gateway.turns_of_turn ht)
  case _ =>
    split at h
    · cases h
      exact .flags rfl
    · cases h
  case _ =>
    obtain ⟨c,-,hr⟩ := map_eq_some_iff.mp h
    cases hr
    exact .fire
  case _ =>
    split at h
    · cases h
      exact .flags rfl
    · cases h
  case _ =>
    cases h
    exact .flags rfl
  case _ =>
    cases h
    exact .exit

end OpsAgent.PluginRuntime
