import Mathlib.Logic.Function.Basic
import OpsAgent.Lib.Json
import OpsAgent.PluginRuntime.Gateway
import OpsAgent.PluginRuntime.Manifest

/-!
# The watcher of plugin manifests (`watcher.go` and `gateway.go` of `pluginruntime`)

What starting a process depends on, its socket and the program, is the answer that a label carries.
For which paths `fsnotify` delivers an event, given the paths that are watched, is a parameter.
-/

namespace OpsAgent.PluginRuntime.Watcher
open Lib Lib.GoStrings Lib.GoPath List

abbrev PluginConfig := GoString → Option Json

structure PluginManifest extends ManifestFile.PluginManifest where
  env : List (GoString × GoString)
  config : PluginConfig

-- a process is known by the manifest that it was started with
abbrev Managed := ManagedPlugin PluginManifest PluginManifest

structure Config where
  pluginsDir : GoString
  pluginConfigs : GoString → PluginConfig
  -- the verb `%q` of `fmt`
  quote : GoString → GoString

inductive Action
  | reload | unload

structure Gateway where
  plugins : GoString → Option Managed := fun _ => none
  timers : GoString → Option Action := fun _ => none
  -- the manifests on disk
  files : GoString → Option PluginManifest := fun _ => none

structure Event where
  name : GoString
  (create write remove : Bool)

def isPluginManifest (path : GoString) : Bool := baseOf path=utf8 "plugin.yaml"

def extractPluginName (pluginsDir manifestPath : GoString) : GoString :=
  match rel pluginsDir manifestPath with
  | none => []
  | some rel =>
    if rel.take 2=dotdot then []
    else
      let dir:=dirOf rel
      if dir=dot then [] else baseOf dir

def mergePluginConfig (manifestCfg agentCfg : PluginConfig) : PluginConfig :=
  fun key => (agentCfg key).or (manifestCfg key)
def sanitizePluginName (cfg : Config) (name : GoString) : Except GoString GoString :=
  -- no byte of a longer character is accepted
  if validPluginName (String.ofList (name.map fun b => Char.ofNat b.toNat)) then .ok name
  else .error (utf8 "invalid plugin name "++cfg.quote name++
    utf8 ": must be alphanumeric with hyphens/underscores")
def PluginManifest.merged (cfg : Config) (m : PluginManifest) : PluginManifest :=
  {m with config := mergePluginConfig m.config (cfg.pluginConfigs m.name)}

namespace Gateway

def debounceEvent (g : Gateway) (key : GoString) (action : Action) : Gateway :=
  {g with timers := Function.update g.timers key (some action)}

def handleFsEvent (cfg : Config) (g : Gateway) (event : Event) : Gateway :=
  let pluginName:=extractPluginName cfg.pluginsDir event.name
  if !isPluginManifest event.name||pluginName=[] then g
  else if event.create||event.write then g.debounceEvent pluginName .reload
  else if event.remove then g.debounceEvent pluginName .unload
  else g

def stopPlugin (g : Gateway) (name : GoString) (p : Managed) : Gateway :=
  if p.status=.stopped ∨ p.status=.disabled then g
  else
    let stopped := {p with status := .stopped, client := false, process := none}
    {g with plugins := Function.update g.plugins name (some stopped)}

def loadPlugin (cfg : Config) (g : Gateway) (manifest : PluginManifest) (started : Except GoString Unit) :
    Gateway × Except GoString Unit :=
  match sanitizePluginName cfg manifest.name with
  | .error err => (g,.error (utf8 "invalid plugin name: "++err))
  | .ok _ =>
    let m:=manifest.merged cfg
    match started with
    | .error err => (g,.error err)
    | .ok () =>
      let mp:=⟨m,some m,true,.running,(g.plugins m.name).elim 0 (·.restartCount)⟩
      ({g with plugins := Function.update g.plugins m.name (some mp)},.ok ())

def reloadPlugin (cfg : Config) (g : Gateway) (name : GoString) (started : Except GoString Unit) :
    Gateway × Except GoString Unit :=
  match g.plugins name with
  | none => (g,.error (utf8 "plugin not found: "++name))
  | some p => (g.stopPlugin name p).loadPlugin cfg p.manifest started

/-- The function of the timer of `key`. -/
def fire (cfg : Config) (g : Gateway) (key : GoString) (started : Except GoString Unit) : Gateway :=
  let g' := {g with timers := Function.update g.timers key none}
  match g.timers key with
  | none => g
  | some .reload => (g'.reloadPlugin cfg key started).1
  | some .unload => {g' with plugins := Function.update g.plugins key none}

end Gateway

/-- The paths that `startWatcher` adds to the watcher. -/
def startWatcher (cfg : Config) : List GoString := if cfg.pluginsDir=[] then [] else [cfg.pluginsDir]

inductive Label
  | load (manifest : PluginManifest) (started : Except GoString Unit)
  | write (path : GoString) (manifest : PluginManifest) (create : Bool)
  | remove (path : GoString)
  | fire (key : GoString) (started : Except GoString Unit)

section
variable (delivers : List GoString → GoString → Bool) (cfg : Config)

/-- What the goroutine of the watcher does after a change of the file. -/
def notify (g : Gateway) (event : Event) : Gateway :=
  if delivers (startWatcher cfg) event.name then g.handleFsEvent cfg event else g
def step (g : Gateway) : Label → Gateway
  | .load manifest started => (g.loadPlugin cfg manifest started).1
  | .write path manifest create =>
    notify delivers cfg {g with files := Function.update g.files path (some manifest)}
      ⟨path,create,!create,false⟩
  | .remove path =>
    notify delivers cfg {g with files := Function.update g.files path none} ⟨path,false,false,true⟩
  | .fire key started => g.fire cfg key started
def run (labels : List Label) : Gateway := labels.foldl (step delivers cfg) {}

end

/-- A watch is not recursive: an event is about a watched path, or an entry of a watched
directory. -/
def NotRecursive (delivers : List GoString → GoString → Bool) : Prop :=
  ∀ watched path, delivers watched path →
    ∃ dir∈watched, clean path=clean dir ∨ DirectChild dir path

/-- The plugin runs as the manifest says, with the agent's settings. -/
def Serves (cfg : Config) (g : Gateway) (m : PluginManifest) : Prop :=
  ∃ p, g.plugins m.name=some p ∧ p.status=.running ∧ p.manifest=m.merged cfg ∧
    p.process=some (m.merged cfg)

variable {delivers : List GoString → GoString → Bool} {cfg : Config} {g : Gateway} {dir path : GoString}

theorem relElements_append (es ts : List GoString) : relElements es (es++ts)=some ts := by
  induction es with
  | nil => cases ts <;> rfl
  | cons e es ih => rw [cons_append,relElements,if_pos rfl,ih]

theorem dirOf_name {n : GoString} (h : slash∉n) : dirOf n=dot := by
  have hname : ∀ b∈n.reverse, (b != slash)=true := by
    intro b hb
    rw [bne_iff_ne]
    exact fun heq => h (heq ▸ mem_reverse.mp hb)
  rw [dirOf,← append_nil n.reverse,dropWhile_append_of_pos hname]
  rfl

/-- A manifest lies one level below the entries of the plugins directory. -/
theorem extractPluginName_entry (h : clean path=clean dir ∨ DirectChild dir path) :
    extractPluginName dir path=[] := by
  unfold extractPluginName rel
  by_cases hsame : clean dir=clean path
  · rw [if_pos hsame]
    decide
  · have hchild:=h.resolve_left fun h => hsame h.symm
    obtain ⟨n,hn,helems⟩ := hchild.name
    rw [if_neg hsame,if_neg (not_not.mpr hchild.isAbs_eq.symm),helems,relElements_append,
      Option.map_some,joinElements_singleton]
    dsimp only
    rw [dirOf_name hn.no_slash,if_pos rfl]
    exact ite_self _

theorem notify_eq (hfs : NotRecursive delivers) (g : Gateway) (event : Event) :
    notify delivers cfg g event=g := by
  unfold notify
  split
  · rename_i hdelivered
    obtain ⟨dir,hdir,hpath⟩ := hfs _ _ hdelivered
    unfold startWatcher at hdir
    split at hdir
    · cases hdir
    · rw [mem_singleton.mp hdir] at hpath
      simp [Gateway.handleFsEvent,extractPluginName_entry hpath]
  · rfl

def Label.isLoad : Label → Bool
  | .load _ _ => true
  | _ => false

theorem loadPlugin_timers (g : Gateway) (m : PluginManifest) (started : Except GoString Unit) :
    (g.loadPlugin cfg m started).1.timers=g.timers := by
  unfold Gateway.loadPlugin
  cases sanitizePluginName cfg m.name with
  | error err => rfl
  | ok safe => cases started <;> rfl

/-- Nothing is ever pending, and only loading a plugin changes what runs. -/
theorem step_idle (cfg : Config) (hfs : NotRecursive delivers) (hg : ∀ key, g.timers key=none)
    (l : Label) : (∀ key, (step delivers cfg g l).timers key=none) ∧
      (l.isLoad=false → (step delivers cfg g l).plugins=g.plugins) := by
  cases l with
  | load m started =>
    rw [step,loadPlugin_timers]
    exact ⟨hg,nofun⟩
  | write path m create =>
    rw [step,notify_eq hfs]
    exact ⟨hg,fun _ => rfl⟩
  | remove path =>
    rw [step,notify_eq hfs]
    exact ⟨hg,fun _ => rfl⟩
  | fire key started =>
    rw [step,Gateway.fire,hg key]
    exact ⟨hg,fun _ => rfl⟩

theorem foldl_idle (cfg : Config) (hfs : NotRecursive delivers) (hg : ∀ key, g.timers key=none)
    (ls : List Label) : (∀ key, (ls.foldl (step delivers cfg) g).timers key=none) ∧
      ((∀ l∈ls, l.isLoad=false) → (ls.foldl (step delivers cfg) g).plugins=g.plugins) := by
  induction ls generalizing g with
  | nil => exact ⟨hg,fun _ => rfl⟩
  | cons l ls ih =>
    obtain ⟨htimers,hplugins⟩ := step_idle cfg hfs hg l
    obtain ⟨hrest,hsame⟩ := ih htimers
    refine ⟨hrest,fun hl => ?_⟩
    rw [forall_mem_cons] at hl
    exact (hsame hl.2).trans (hplugins hl.1)

/-- No change of a plugin's manifest reaches the watcher: no reload is ever pending, and whatever
comes after the change, short of loading a plugin, the plugin runs with the file's manifest exactly if
it did before. -/
theorem watcher_serves_iff (delivers : List GoString → GoString → Bool) (hfs : NotRecursive delivers)
    (cfg : Config) (labels later : List Label) (hlater : ∀ l∈later, l.isLoad=false) (path : GoString)
    (m : PluginManifest) (create : Bool) :
    let changed:=run delivers cfg (labels++.write path m create::later)
    (∀ key, changed.timers key=none) ∧
      (Serves cfg changed m ↔ Serves cfg (run delivers cfg labels) m) := by
  have hidle : ∀ key, (run delivers cfg labels).timers key=none :=
    (foldl_idle (g := {}) cfg hfs (fun _ => rfl) labels).1
  obtain ⟨htimers,hplugins⟩ := foldl_idle cfg hfs hidle (.write path m create::later)
  have hsame:=hplugins (forall_mem_cons.mpr ⟨rfl,hlater⟩)
  simp only [run,foldl_append] at htimers hsame ⊢
  refine ⟨htimers,?_⟩
  unfold Serves
  rw [hsame]

theorem Serves.version {m : PluginManifest} (h : Serves cfg g m) :
    (g.plugins m.name).map (·.manifest.version)=some m.version := by
  obtain ⟨p,hp,-,hmanifest,-⟩ := h
  rw [hp,Option.map_some,hmanifest]
  rfl

/-- Events about the watched paths and the entries of watched directories, under cleaned names. -/
def inotify (watched : List GoString) (path : GoString) : Bool :=
  watched.any fun dir => dir≠[] ∧ (path=clean dir ∨ path=join [dir,baseOf path] ∧ baseOf path≠[] ∧
    baseOf path≠dot ∧ baseOf path≠dotdot ∧ slash∉baseOf path)

theorem inotify_notRecursive : NotRecursive inotify := by
  intro watched path h
  obtain ⟨dir,hmem,hdir⟩ := any_eq_true.mp h
  obtain ⟨hne,hself | ⟨hpath,hnil,hdot,hdotdot,hslash⟩⟩ := of_decide_eq_true hdir
  · exact ⟨dir,hmem,.inl (by rw [hself,clean_clean])⟩
  · refine ⟨dir,hmem,.inr ?_⟩
    rw [hpath]
    exact directChild_join hne ⟨hnil,hdot,hdotdot,hslash⟩

def agent : Config := ⟨utf8 "/plugins",fun _ _ => none,id⟩
def probe (version : String) : PluginManifest :=
  ⟨⟨utf8 "probe",utf8 version,utf8 "process",utf8 "/plugins/probe/run",[utf8 "scan"],none,
    utf8 "/plugins/probe"⟩,[],fun _ => none⟩
def probeFile : GoString := utf8 "/plugins/probe/plugin.yaml"
def probeRewritten (version : String) : Gateway :=
  run inotify agent [.load (probe "1.0.0") (.ok ()),.write probeFile (probe version) false,
    .fire (utf8 "probe") (.ok ())]

theorem watcher_serves_unchanged : (probeRewritten "1.0.0").files probeFile=some (probe "1.0.0") ∧
    Serves agent (probeRewritten "1.0.0") (probe "1.0.0") := by
  have hloaded : Serves agent (run inotify agent [.load (probe "1.0.0") (.ok ())]) (probe "1.0.0") :=
    ⟨_,rfl,rfl,rfl,rfl⟩
  refine ⟨rfl,((watcher_serves_iff inotify inotify_notRecursive agent
    [.load (probe "1.0.0") (.ok ())] [.fire (utf8 "probe") (.ok ())] ?_ probeFile (probe "1.0.0")
    false).2).mpr hloaded⟩
  intro l hl
  rw [mem_singleton.mp hl]
  rfl

theorem watcher_keeps_version : inotify (startWatcher agent) (utf8 "/plugins/probe")=true ∧
    inotify (startWatcher agent) probeFile=false ∧
    (probeRewritten "2.0.0").files probeFile=some (probe "2.0.0") ∧
    ¬ Serves agent (probeRewritten "2.0.0") (probe "2.0.0") := by
  refine ⟨by decide +kernel,by decide +kernel,rfl,?_⟩
  intro h
  exact absurd h.version (by decide +kernel)

end OpsAgent.PluginRuntime.Watcher
