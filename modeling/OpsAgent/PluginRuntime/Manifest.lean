import OpsAgent.Lib.GoPath
import OpsAgent.Lib.Regexp

/-!
# Plugin manifests (`manifest.go` and `DiscoverManifests` in `gateway.go` of `pluginruntime`)
-/

namespace OpsAgent.PluginRuntime.ManifestFile
open Lib.GoStrings List
open Lib.GoPath
open Lib.Regexp

/-- The fields that are checked or resolved. -/
structure PluginManifest where
  (name version runtime binaryPath : GoString)
  taskTypes : List GoString
  -- the field `OS`, if there are requirements
  requirements : Option (List GoString)
  resolvedDir : GoString
  deriving DecidableEq

def digit (c : Char) : Bool := '0' ≤ c&&c ≤ '9'

/-- `^\d+\.\d+\.\d+(-[a-zA-Z0-9.]+)?$` -/
def semverRe : Re :=
  let number:=Re.plus (.char digit)
  let suffix:=Re.plus (.char fun c => c.isAlphanum||c == '.')
  .seqs [.bol,number,.lit ['.'],number,.lit ['.'],number,
    .alt (.group 1 (.seqs [.lit ['-'],suffix])) .empty,.eol]

def isSemver (version : GoString) : Bool :=
  (findSubmatch semverRe (version.map fun b => Char.ofNat b.toNat)).isSome

structure Env where
  readFile : GoString → Except GoString GoString
  -- `os.Stat` returns no error
  stat : GoString → Bool
  -- `yaml.Unmarshal` into a new manifest
  unmarshal : GoString → Except GoString PluginManifest
  -- the verb `%q` of `fmt`
  quote : GoString → GoString
  goos : GoString

structure DirEntry where
  name : GoString
  isDir : Bool
  plain : Plain name

variable (env : Env)

def sliceText (ss : List GoString) : GoString := utf8 "["++(utf8 " ").intercalate ss++utf8 "]"
def PluginManifest.withRuntime (m : PluginManifest) : PluginManifest :=
  {m with runtime := if m.runtime=[] then utf8 "process" else m.runtime}

def checkOs : Option (List GoString) → Except GoString Unit
  | some os =>
    if os≠[] ∧ env.goos∉os then
      .error (utf8 "manifest: unsupported OS "++env.quote env.goos++utf8 ", plugin requires " ++
        sliceText os)
    else .ok ()
  | none => .ok ()

def validate (m : PluginManifest) : Except GoString PluginManifest :=
  if m.name=[] then .error (utf8 "manifest: name is required")
  else if m.version=[] then .error (utf8 "manifest: version is required")
  else if !isSemver m.version then
    .error (utf8 "manifest: version "++env.quote m.version++utf8 " is not valid semver")
  else if m.binaryPath=[] then .error (utf8 "manifest: binary_path is required")
  else if m.taskTypes=[] then .error (utf8 "manifest: task_types must not be empty")
  else
    let m:=m.withRuntime
    if m.runtime≠utf8 "process" then
      .error (utf8 "manifest: runtime must be 'process', got "++env.quote m.runtime)
    else match checkOs env m.requirements with
      | .error err => .error err
      | .ok () => .ok m

def parseManifest (data : GoString) : Except GoString PluginManifest :=
  match env.unmarshal data with
  | .error err => .error (utf8 "parse manifest: "++err)
  | .ok m => validate env m
def resolve (dir binaryPath : GoString) : GoString :=
  if isAbs binaryPath then binaryPath else join [dir,binaryPath]

def confine (path : GoString) (m : PluginManifest) : Except GoString PluginManifest :=
  let dir:=dirOf path
  let binaryPath:=resolve dir m.binaryPath
  if hasPrefix (clean binaryPath) (clean dir++[slash]) then
    .ok {m with resolvedDir := dir, binaryPath := clean binaryPath}
  else
    .error (utf8 "binary_path "++env.quote binaryPath++utf8 " escapes plugin directory " ++
      env.quote dir)

def loadManifest (path : GoString) : Except GoString PluginManifest :=
  match env.readFile path with
  | .error err => .error (utf8 "read manifest "++path++utf8 ": "++err)
  | .ok data => match parseManifest env data with
    | .error err => .error err
    | .ok m => confine env path m

def manifestPath (dir name : GoString) : GoString := join [dir,name,utf8 "plugin.yaml"]

def loadEntries (dir : GoString) : List DirEntry → Except GoString (List PluginManifest)
  | [] => .ok []
  | entry::entries =>
    if !entry.isDir then loadEntries dir entries
    else
      let path:=manifestPath dir entry.name
      if !env.stat path then loadEntries dir entries
      else match loadManifest env path with
        | .error err => .error (utf8 "load manifest "++path++utf8 ": "++err)
        | .ok m => match loadEntries dir entries with
          | .error err => .error err
          | .ok ms => .ok (m::ms)

/-- `DiscoverManifests`; the last parameter is the result of `os.ReadDir`. -/
def discoverManifests (dir : GoString) :
    Except GoString (List DirEntry) → Except GoString (List PluginManifest)
  | .error err => .error (utf8 "read plugins directory: "++err)
  | .ok entries => loadEntries env dir entries

variable {env} {m : PluginManifest}

theorem binaryPath_ne_nil_of_validate {m' : PluginManifest} (h : validate env m=.ok m') :
    m'.binaryPath≠[] := by
  simp only [validate] at h
  split at h
  · cases h
  split at h
  · cases h
  split at h
  · cases h
  split at h
  · cases h
  rename_i hpath
  split at h
  · cases h
  split at h
  · cases h
  split at h
  · cases h
  · cases h
    exact hpath

theorem binaryPath_ne_nil_of_parse {data : GoString}
    (h : parseManifest env data=.ok m) : m.binaryPath≠[] := by
  unfold parseManifest at h
  split at h
  · cases h
  · exact binaryPath_ne_nil_of_validate h

theorem plain_pluginYaml : Plain (utf8 "plugin.yaml") :=
  ⟨by decide,by decide,by decide,by decide⟩
theorem loadManifest_eq {path data : GoString}
    (hread : env.readFile path=.ok data) (hparse : parseManifest env data=.ok m) :
    loadManifest env path=confine env path m := by simp only [loadManifest,hread,hparse]

theorem of_loadManifest {path : GoString} (h : loadManifest env path=.ok m) :
    ∃ data m₀, env.readFile path=.ok data ∧ parseManifest env data=.ok m₀ ∧
      confine env path m₀=.ok m := by
  unfold loadManifest at h
  split at h
  · cases h
  · rename_i data hread
    split at h
    · cases h
    · rename_i m₀ hparse
      exact ⟨data,m₀,hread,hparse,h⟩

section
variable (dir : GoString) {name : GoString} (hname : Plain name)
include hname

theorem resolvedDir_eq : dirOf (manifestPath dir name)=join [dir,name] :=
  dirOf_join dir hname plain_pluginYaml

theorem hasPrefix_iff_below (p : GoString) :
    hasPrefix (clean p) (clean (join [dir,name])++[slash]) ↔ Below (join [dir,name]) p := by
  have helems:=elements_join dir hname
  rw [below_iff helems hname.ne_dotdot,hasPrefix_clean_iff]
  rw [helems]
  exact append_ne_nil_of_right_ne_nil _ (cons_ne_nil name [])

theorem confine_below {m m' : PluginManifest}
    (h : confine env (manifestPath dir name) m=.ok m') : Below (join [dir,name]) m'.binaryPath := by
  simp only [confine,resolvedDir_eq dir hname] at h
  split at h
  · rename_i hprefix
    cases h
    exact ((hasPrefix_iff_below dir hname _).mp hprefix).clean
  · cases h

theorem confine_of_below {m : PluginManifest}
    (h : Below (join [dir,name]) (resolve (join [dir,name]) m.binaryPath)) :
    confine env (manifestPath dir name) m=.ok {m with
      resolvedDir := join [dir,name]
      binaryPath := clean (resolve (join [dir,name]) m.binaryPath)} := by
  simp only [confine,resolvedDir_eq dir hname]
  rw [if_pos ((hasPrefix_iff_below dir hname _).mpr h)]

theorem below_of_elements {p : GoString} (habs : isAbs p=false) (hne : elements p≠[])
    (hdd : dotdot∉elements p) : Below (join [dir,name]) (join [join [dir,name],p]) := by
  have hp : p≠[] := fun hnil => hne (by rw [hnil]; rfl)
  have hdir:=join_ne_nil dir hname
  rw [join_pair hdir hp]
  have hbelow : Below (join [dir,name]) (join [dir,name]++slash::p) :=
    ⟨isAbs_append hdir _,elements p,hne,hdd,elements_append hdir habs hdd⟩
  exact hbelow.clean

/-- The program of an accepted manifest is in the directory of the plugin, and every relative name of
something there is accepted. -/
theorem loadManifest_binaryPath {data : GoString} {m : PluginManifest}
    (hread : env.readFile (manifestPath dir name)=.ok data) (hparse : parseManifest env data=.ok m) :
    (∀ m', loadManifest env (manifestPath dir name)=.ok m' → Below (join [dir,name]) m'.binaryPath) ∧
    (isAbs m.binaryPath=false → Below (join [dir,name]) (join [join [dir,name],m.binaryPath]) ∨
        (elements m.binaryPath≠[] ∧ dotdot∉elements m.binaryPath) →
      ∃ m', loadManifest env (manifestPath dir name)=.ok m' ∧
        m'.binaryPath=join [join [dir,name],m.binaryPath]) := by
  rw [loadManifest_eq hread hparse]
  refine ⟨fun m' => confine_below dir hname,fun habs hin => ?_⟩
  have hbelow : Below (join [dir,name]) (join [join [dir,name],m.binaryPath]) :=
    hin.elim id fun h => below_of_elements dir hname habs h.1 h.2
  have hresolve : resolve (join [dir,name]) m.binaryPath =
      join [join [dir,name],m.binaryPath] := by rw [resolve,habs,if_neg (by nofun)]
  have hclean : clean (join [join [dir,name],m.binaryPath]) =
      join [join [dir,name],m.binaryPath] := by
    rw [join_pair (join_ne_nil dir hname) (binaryPath_ne_nil_of_parse hparse),clean_clean]
  refine ⟨_,confine_of_below dir hname (hresolve ▸ hbelow),?_⟩
  rw [hresolve,hclean]

end

theorem discoverManifests_below {dir : GoString} {listing : Except GoString (List DirEntry)}
    {ms : List PluginManifest} (h : discoverManifests env dir listing=.ok ms) :
    ∃ entries, listing=.ok entries ∧
      ∀ m∈ms, ∃ e∈entries, e.isDir ∧ Below (join [dir,e.name]) m.binaryPath := by
  cases listing with
  | error err => cases h
  | ok entries =>
    refine ⟨entries,rfl,?_⟩
    change loadEntries env dir entries=.ok ms at h
    induction entries generalizing ms with
    | nil =>
      cases h
      nofun
    | cons entry entries ih =>
      have hskip : loadEntries env dir entries=.ok ms →
          ∀ m∈ms, ∃ e∈entry::entries, e.isDir ∧ Below (join [dir,e.name]) m.binaryPath := by
        intro h m hm
        obtain ⟨e,he,hdir⟩ := ih h m hm
        exact ⟨e,mem_cons_of_mem entry he,hdir⟩
      simp only [loadEntries] at h
      split at h
      · exact hskip h
      rename_i hisDir
      split at h
      · exact hskip h
      split at h
      · cases h
      rename_i m₀ hload
      split at h
      · cases h
      rename_i rest hrest
      cases h
      intro m hm
      rcases mem_cons.mp hm with rfl | hm
      · obtain ⟨data,m₁,-,-,hconf⟩ := of_loadManifest hload
        exact ⟨entry,mem_cons_self,by simpa using hisDir,confine_below dir entry.plain hconf⟩
      · obtain ⟨e,he,hdir⟩ := ih hrest m hm
        exact ⟨e,mem_cons_of_mem entry he,hdir⟩

def probe : PluginManifest where
  name := utf8 "probe"
  version := utf8 "1.0.0-rc.1"
  runtime := []
  binaryPath := utf8 "../probe//bin/./run"
  taskTypes := [utf8 "scan"]
  requirements := some [utf8 "linux"]
  resolvedDir := []

def probeText : GoString :=
  utf8 "name: probe\nversion: 1.0.0-rc.1\nbinary_path: ../probe//bin/./run\ntask_types: [scan]\nrequirements: \x7bos: [linux]\x7d\n"

def probeEnv : Env where
  readFile := fun _ => .ok probeText
  stat := fun _ => true
  unmarshal := fun data => if data=probeText then .ok probe else .error (utf8 "another document")
  quote := fun s => utf8 "\""++s++utf8 "\""
  goos := utf8 "linux"

theorem plain_probe : Plain (utf8 "probe") := ⟨by decide,by decide,by decide,by decide⟩

theorem loadManifest_probe :
    ∃ m, loadManifest probeEnv (manifestPath (utf8 "../plugins/") (utf8 "probe"))=.ok m ∧
      m.binaryPath=utf8 "../plugins/probe/bin/run" := by
  have hparse : parseManifest probeEnv probeText=.ok probe.withRuntime := by decide
  obtain ⟨m,hload,hpath⟩ :=
    (loadManifest_binaryPath (utf8 "../plugins/") plain_probe rfl hparse).2
      (by decide) (.inl ⟨by decide,[utf8 "bin",utf8 "run"],by decide,by decide,by decide⟩)
  exact ⟨m,hload,hpath.trans (by decide)⟩

def probeListing : Except GoString (List DirEntry) := .ok [⟨utf8 "probe",true,plain_probe⟩]

theorem discoverManifests_probe :
    ∃ m, discoverManifests probeEnv (utf8 "plugins") probeListing=.ok [m] ∧
      ∃ entries, probeListing=.ok entries ∧
        ∀ m'∈[m], ∃ e∈entries, e.isDir ∧ Below (join [utf8 "plugins",e.name]) m'.binaryPath :=
  ⟨_,rfl,@discoverManifests_below probeEnv _ _ _ rfl⟩

end OpsAgent.PluginRuntime.ManifestFile
