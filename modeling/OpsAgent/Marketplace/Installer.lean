import OpsAgent.Lib.GoPath

/-!
# Installing plugins (`marketplace/installer.go`)

What the system and the server answer is an input.
-/

namespace OpsAgent.Marketplace
open Lib.GoStrings Lib.GoPath List

structure PluginEntry where
  (name version downloadURL checksum : GoString)

/-- What `os.Stat` finds. -/
inductive Stat where
  | missing | file | directory
  deriving DecidableEq

/-- What is there under given elements; all that is there is in a directory. -/
structure Disk where
  stat : List GoString → Stat
  parent : ∀ es n, stat (es++[n]) ≠ .missing → stat es=.directory

inductive Action where
  | mkdir
  | write (data : GoString)
  | removeAll
  deriving DecidableEq

/-- An action on the file or directory with these elements, from the root or the working directory. -/
structure Effect where
  action : Action
  rooted : Bool
  place : List GoString
  deriving DecidableEq

def Effect.at (action : Action) (path : GoString) : Effect := ⟨action,isAbs path,elements path⟩

/-- What was asked of the system, and the result or the error. -/
abbrev Run (α : Type) := List Effect × Except GoString α

def Run.andThen {α β : Type} (run : Run α) (next : α → Run β) : Run β :=
  match run.2 with
  | .error err => (run.1,.error err)
  | .ok a => (run.1++(next a).1,(next a).2)
def failing (context : GoString) (err : Option GoString) : Except GoString Unit :=
  err.elim (.ok ()) fun err => .error (context++err)

structure Installer where
  pluginsDir : GoString
  disk : Disk
  mkdirError : List GoString → Option GoString
  /-- `client.Get`: the status and what `io.ReadAll` returns -/
  get : GoString → Except GoString (Nat × Except GoString GoString)
  sha256Hex : GoString → GoString
  writeError : GoString → Option GoString
  /-- the time and `yaml.Marshal` -/
  metadata : PluginEntry → Except GoString GoString
  removeError : Option GoString
  quote : GoString → GoString

namespace Installer
variable (i : Installer)

/-- One directory on the way of `os.MkdirAll`. -/
def mkdirOne (rooted : Bool) (es : List GoString) : Run Unit :=
  match i.disk.stat es with
  | .directory => ([],.ok ())
  | .file => ([],.error (utf8 "create plugin directory: mkdir "++(if rooted then [slash] else []) ++
      joinElements es++utf8 ": not a directory"))
  | .missing => ([⟨.mkdir,rooted,es⟩],failing (utf8 "create plugin directory: ") (i.mkdirError es))
def mkdirs (rooted : Bool) : List GoString → List GoString → Run Unit
  | way, [] => i.mkdirOne rooted way
  | way, n::rest => (i.mkdirOne rooted way).andThen fun _ => mkdirs rooted (way++[n]) rest
/-- `os.MkdirAll` -/
def mkdirAll (path : GoString) : Run Unit := i.mkdirs (isAbs path) [] (elements path)

/-- The part of `Install` from the request to the checksum. -/
def download (entry : PluginEntry) : Except GoString GoString :=
  match i.get entry.downloadURL with
  | .error err => .error (utf8 "download plugin "++entry.name++utf8 ": "++err)
  | .ok (status,body) =>
    if status≠200 then
      .error (utf8 "download plugin "++entry.name++utf8 ": unexpected status "++decimal status)
    else
      match body with
      | .error err => .error (utf8 "read plugin download: "++err)
      | .ok data =>
        if entry.checksum≠[] ∧ i.sha256Hex data≠entry.checksum then
          .error (utf8 "checksum mismatch for plugin "++entry.name++utf8 ": expected " ++
            entry.checksum++utf8 ", got "++i.sha256Hex data)
        else .ok data

def writeFile (path data context : GoString) : Run Unit :=
  ([.at (.write data) path],failing context (i.writeError path))

def install (entry : PluginEntry) : Run Unit :=
  if entry.name=[] then ([],.error (utf8 "plugin name is required"))
  else if entry.downloadURL=[] then ([],.error (utf8 "plugin download URL is required"))
  else
    let pluginDir:=join [i.pluginsDir,entry.name]
    (i.mkdirAll pluginDir).andThen fun _ =>
    Run.andThen ([],i.download entry) fun data =>
    (i.writeFile (join [pluginDir,entry.name]) data (utf8 "write plugin binary: ")).andThen fun _ =>
    Run.andThen ([],(i.metadata entry).mapError (utf8 "marshal plugin metadata: " ++ ·)) fun metaData =>
    i.writeFile (join [pluginDir,utf8 "installed.yaml"]) metaData (utf8 "write plugin metadata: ")

def remove (name : GoString) : Run Unit :=
  if name=[] then ([],.error (utf8 "plugin name is required"))
  else
    let pluginDir:=join [i.pluginsDir,name]
    if i.disk.stat (elements pluginDir)=.missing then
      ([],.error (utf8 "plugin "++i.quote name++utf8 " is not installed"))
    else
      ([.at .removeAll pluginDir],failing (utf8 "remove plugin "++name++utf8 ": ") i.removeError)

end Installer

/-- Strictly inside the directory. -/
def Inside (dir : GoString) (rooted : Bool) (place : List GoString) : Prop :=
  rooted=isAbs dir ∧ ∃ rest, rest≠[] ∧ dotdot∉rest ∧ place=elements dir++rest

/-- The action is on something strictly inside the directory, and what is removed is a directory. -/
structure Effect.Allowed (disk : Disk) (dir : GoString) (e : Effect) : Prop where
  inside : Inside dir e.rooted e.place
  directory : e.action=.removeAll → disk.stat e.place=.directory

/-- No file stands where `os.MkdirAll` needs a directory. -/
def Makeable (disk : Disk) (path : GoString) : Prop := ∀ es, es <+: elements path → disk.stat es ≠ .file

/-- What `Install` makes and writes for the name: the missing directories, the program and its data. -/
structure InstallsInside (disk : Disk) (dir name : GoString) : Prop where
  made : ∀ es, es <+: elements (join [dir,name]) → disk.stat es=.missing →
    Inside dir (isAbs (join [dir,name])) es
  program : Below dir (join [join [dir,name],name])
  metadata : Below dir (join [join [dir,name],utf8 "installed.yaml"])

variable {i : Installer} {rooted : Bool} {way rest es : List GoString} {e : Effect}

theorem Disk.directory_above (disk : Disk) (h : es <+: way) (hne : es ≠ way)
    (hthere : disk.stat way ≠ .missing) : disk.stat es=.directory := by
  obtain ⟨more,rfl⟩ := h
  induction more using List.reverseRecOn with
  | nil => exact absurd (append_nil es).symm hne
  | append_singleton more n ih =>
    rw [← append_assoc] at hthere
    have hdir:=disk.parent _ _ hthere
    by_cases hnil : more=[]
    · rw [hnil,append_nil] at hdir
      exact hdir
    · refine ih (fun heq => hnil ?_) (by rw [hdir]; decide)
      exact append_right_eq_self.mp heq.symm

theorem mem_andThen {α β : Type} {run : Run α} {next : α → Run β} (h : e∈(run.andThen next).1) :
    e∈run.1 ∨ ∃ a, run.2=.ok a ∧ e∈(next a).1 := by
  unfold Run.andThen at h
  split at h
  · exact .inl h
  · rename_i a ha
    exact (mem_append.mp h).imp_right fun h => ⟨a,ha,h⟩

theorem andThen_ok {α β : Type} {run : Run α} {next : α → Run β} {a : α} (h : run.2=.ok a) :
    run.andThen next=(run.1++(next a).1,(next a).2) := by rw [Run.andThen,h]

theorem mem_mkdirOne (h : e∈(i.mkdirOne rooted es).1) :
    i.disk.stat es=.missing ∧ e=⟨.mkdir,rooted,es⟩ := by
  unfold Installer.mkdirOne at h
  split at h
  · cases h
  · cases h
  · exact ⟨‹_›,mem_singleton.mp h⟩

theorem mem_mkdirs (h : e∈(i.mkdirs rooted way rest).1) :
    ∃ es, es <+: way++rest ∧ i.disk.stat es=.missing ∧ e=⟨.mkdir,rooted,es⟩ := by
  induction rest generalizing way with
  | nil =>
    rw [append_nil]
    exact ⟨way,prefix_rfl,mem_mkdirOne h⟩
  | cons n rest ih =>
    obtain h | ⟨-,-,h⟩ := mem_andThen h
    · exact ⟨way,prefix_append _ _,mem_mkdirOne h⟩
    · obtain ⟨es,hes,hmissing⟩ := ih h
      exact ⟨es,by simpa using hes,hmissing⟩

theorem mkdirOne_directory (h : i.disk.stat way=.directory) : i.mkdirOne rooted way=([],.ok ()) := by
  rw [Installer.mkdirOne,h]
theorem mkdirOne_file (h : i.disk.stat way=.file) : ∃ err, i.mkdirOne rooted way=([],.error err) := by
  rw [Installer.mkdirOne,h]
  exact ⟨_,rfl⟩

/-- Past a file nothing can be made, and before it nothing is missing. -/
theorem mkdirs_blocked (hfile : i.disk.stat es=.file) (hway : way <+: es) (hes : es <+: way++rest) :
    ∃ err, i.mkdirs rooted way rest=([],.error err) := by
  induction rest generalizing way with
  | nil =>
    rw [append_nil] at hes
    rw [hes.eq_of_length_le hway.length_le] at hfile
    exact mkdirOne_file hfile
  | cons n rest ih =>
    rw [Installer.mkdirs]
    by_cases heq : way=es
    · obtain ⟨err,herr⟩ := @mkdirOne_file i rooted way (heq ▸ hfile)
      rw [herr]
      exact ⟨err,rfl⟩
    · have hdir:=i.disk.directory_above hway heq (by rw [hfile]; decide)
      rw [mkdirOne_directory hdir]
      obtain ⟨more,rfl⟩ := hway
      have hmore:=(prefix_append_right_inj way).mp hes
      cases more with
      | nil => exact absurd (append_nil way).symm heq
      | cons m more =>
        obtain ⟨rfl,-⟩ := cons_prefix_cons.mp hmore
        obtain ⟨err,herr⟩ := @ih (way++[m]) (by simp) (by simpa using hes)
        exact ⟨err,by rw [andThen_ok rfl,herr]; rfl⟩

theorem mkdirOne_ok (hclear : i.disk.stat way ≠ .file) (hok : ∀ es, i.mkdirError es=none) :
    (i.mkdirOne rooted way).2=.ok () ∧
      (i.disk.stat way=.missing → ⟨.mkdir,rooted,way⟩∈(i.mkdirOne rooted way).1) := by
  unfold Installer.mkdirOne
  cases hstat : i.disk.stat way with
  | directory => exact ⟨rfl,nofun⟩
  | file => exact absurd hstat hclear
  | missing =>
    rw [hok]
    exact ⟨rfl,fun _ => mem_singleton.mpr rfl⟩

theorem mkdirs_ok (hclear : ∀ es, es <+: way++rest → i.disk.stat es ≠ .file)
    (hok : ∀ es, i.mkdirError es=none) : (i.mkdirs rooted way rest).2=.ok () ∧
      ∀ es, way <+: es → es <+: way++rest → i.disk.stat es=.missing →
        ⟨.mkdir,rooted,es⟩∈(i.mkdirs rooted way rest).1 := by
  induction rest generalizing way with
  | nil =>
    obtain ⟨hone,hmade⟩ := @mkdirOne_ok i rooted way (hclear way (prefix_append _ _)) hok
    refine ⟨hone,fun es hway hes hmissing => ?_⟩
    rw [append_nil] at hes
    obtain rfl:=hes.eq_of_length_le hway.length_le
    exact hmade hmissing
  | cons n rest ih =>
    obtain ⟨hone,hmade⟩ := @mkdirOne_ok i rooted way (hclear way (prefix_append _ _)) hok
    obtain ⟨hrest,hall⟩ := @ih (way++[n]) (by simpa using hclear)
    rw [Installer.mkdirs,andThen_ok hone]
    refine ⟨hrest,fun es hway hes hmissing => mem_append.mpr ?_⟩
    obtain ⟨more,rfl⟩ := hway
    cases more with
    | nil =>
      rw [append_nil] at hmissing ⊢
      exact .inl (hmade hmissing)
    | cons m more =>
      obtain ⟨rfl,-⟩ := cons_prefix_cons.mp ((prefix_append_right_inj way).mp hes)
      exact .inr (hall _ (by simp) (by simpa using hes) hmissing)

/-- Everything works, and the server has the archive. -/
def answering (dir : GoString) (disk : Disk) : Installer where
  pluginsDir := dir
  disk := disk
  mkdirError _ := none
  get _ := .ok (200,.ok [1])
  sha256Hex data := data
  writeError _ := none
  metadata entry := .ok entry.name
  removeError := none
  quote name := name

theorem install_answering {dir name : GoString} {disk : Disk} (hname : name≠[])
    (hmake : Makeable disk (join [dir,name]))
    (h : ∀ e∈((answering dir disk).install ⟨name,[],[slash],[]⟩).1, e.Allowed disk dir) :
    InstallsInside disk dir name := by
  obtain ⟨hok,hmade⟩ := @mkdirs_ok (answering dir disk) (isAbs (join [dir,name])) []
    (elements (join [dir,name])) hmake fun _ => rfl
  have heffects : ((answering dir disk).install ⟨name,[],[slash],[]⟩).1 =
      ((answering dir disk).mkdirAll (join [dir,name])).1 ++
        [.at (.write [1]) (join [join [dir,name],name]),
          .at (.write name) (join [join [dir,name],utf8 "installed.yaml"])] := by
    rw [Installer.install,if_neg hname,if_neg (cons_ne_nil _ _)]
    exact congrArg Prod.fst (andThen_ok hok)
  rw [heffects] at h
  refine ⟨fun es hes hmissing => ?_,?_,?_⟩
  · exact (h ⟨.mkdir,_,es⟩ (mem_append_left _ (hmade es nil_prefix hes hmissing))).inside
  · obtain ⟨habs,hrest⟩ := (h (.at (.write [1]) (join [join [dir,name],name])) (by simp)).inside
    exact ⟨habs,hrest⟩
  · obtain ⟨habs,hrest⟩ := (h (.at (.write name) (join [join [dir,name],utf8 "installed.yaml"]))
      (by simp)).inside
    exact ⟨habs,hrest⟩

theorem install_allowed (entry : PluginEntry) (h : InstallsInside i.disk i.pluginsDir entry.name)
    (he : e∈(i.install entry).1) : e.Allowed i.disk i.pluginsDir := by
  unfold Installer.install at he
  split at he
  · cases he
  split at he
  · cases he
  obtain he | ⟨-,-,he⟩ := mem_andThen he
  · obtain ⟨es,hes,hmissing,rfl⟩ := mem_mkdirs he
    exact ⟨h.made es hes hmissing,nofun⟩
  obtain he | ⟨data,-,he⟩ := mem_andThen he
  · cases he
  obtain he | ⟨-,-,he⟩ := mem_andThen he
  · rw [mem_singleton.mp he]
    exact ⟨⟨h.program.isAbs_eq,h.program.rest⟩,nofun⟩
  obtain he | ⟨metaData,-,he⟩ := mem_andThen he
  · cases he
  rw [mem_singleton.mp he]
  exact ⟨⟨h.metadata.isAbs_eq,h.metadata.rest⟩,nofun⟩

theorem install_blocked (entry : PluginEntry) (h : ¬ Makeable i.disk (join [i.pluginsDir,entry.name]))
    (he : e∈(i.install entry).1) : False := by
  simp only [Makeable,not_forall,not_not] at h
  obtain ⟨es,hes,hfile⟩ := h
  obtain ⟨err,herr⟩ := @mkdirs_blocked i (isAbs (join [i.pluginsDir,entry.name])) []
    (elements (join [i.pluginsDir,entry.name])) es hfile nil_prefix hes
  unfold Installer.install at he
  split at he
  · cases he
  split at he
  · cases he
  dsimp only at he
  rw [Installer.mkdirAll,herr] at he
  cases he

/-- Whatever the system and the server answer, a name keeps `Install` and `Remove` inside the directory
exactly if the places that its joined paths lead to are inside, and `Remove` finds nothing or a
directory. -/
theorem installer_stays_inside_iff (dir name : GoString) (disk : Disk) :
    (∀ i : Installer, i.pluginsDir=dir → i.disk=disk →
      (∀ entry : PluginEntry, entry.name=name → ∀ e∈(i.install entry).1, e.Allowed disk dir) ∧
        ∀ e∈(i.remove name).1, e.Allowed disk dir) ↔
      name=[] ∨ (Makeable disk (join [dir,name]) → InstallsInside disk dir name) ∧
        (disk.stat (elements (join [dir,name]))=.missing ∨
          disk.stat (elements (join [dir,name]))=.directory ∧ Below dir (join [dir,name])) := by
  constructor
  · intro h
    obtain ⟨hinstall,hremove⟩ := h (answering dir disk) rfl rfl
    by_cases hname : name=[]
    · exact .inl hname
    refine .inr ⟨fun hmake => install_answering hname hmake (hinstall _ rfl),?_⟩
    by_cases hmissing : disk.stat (elements (join [dir,name]))=.missing
    · exact .inl hmissing
    · have heffect : ((answering dir disk).remove name).1=[.at .removeAll (join [dir,name])] := by
        rw [Installer.remove,if_neg hname]
        exact congrArg Prod.fst (if_neg hmissing)
      rw [heffect] at hremove
      obtain ⟨⟨habs,hrest⟩,hdirectory⟩ := hremove _ mem_cons_self
      exact .inr ⟨hdirectory rfl,habs,hrest⟩
  · rintro h i rfl rfl
    obtain rfl | ⟨hinstall,hremove⟩ := h
    · refine ⟨fun entry hentry e he => ?_,nofun⟩
      rw [Installer.install,if_pos hentry] at he
      cases he
    · refine ⟨?_,fun e he => ?_⟩
      · rintro entry rfl e he
        by_cases hmake : Makeable i.disk (join [i.pluginsDir,entry.name])
        · exact install_allowed entry (hinstall hmake) he
        · exact (install_blocked entry hmake he).elim
      · unfold Installer.remove at he
        split at he
        · cases he
        dsimp only at he
        split at he
        · cases he
        rw [mem_singleton.mp he]
        obtain hmissing | ⟨hdirectory,hbelow⟩ := hremove
        · contradiction
        · exact ⟨⟨hbelow.isAbs_eq,hbelow.rest⟩,fun _ => hdirectory⟩

def opsagentDirs : List (List GoString) :=
  [utf8 "opt",utf8 "opsagent",utf8 "plugins",utf8 "disk-check"].inits
def opsagentFile : List GoString :=
  [utf8 "opt",utf8 "opsagent",utf8 "plugins",utf8 "disk-check",utf8 "installed.yaml"]

/-- One plugin is installed. -/
def opsagentDisk : Disk where
  stat es := if es∈opsagentDirs then .directory else if es=opsagentFile then .file else .missing
  parent es n h := by
    have hparents : ∀ x∈opsagentFile::opsagentDirs, x≠[] → x.dropLast∈opsagentDirs := by decide +kernel
    have hthere : es++[n]∈opsagentFile::opsagentDirs := by
      by_contra hno
      rw [mem_cons,not_or] at hno
      rw [if_neg hno.2,if_neg hno.1] at h
      exact h rfl
    have hparent:=hparents _ hthere (append_ne_nil_of_right_ne_nil es (cons_ne_nil n []))
    rw [dropLast_concat] at hparent
    exact if_pos hparent

def opsagentInstaller : Installer := answering (utf8 "/opt/opsagent/plugins") opsagentDisk

theorem remove_leaves_directory :
    (opsagentInstaller.remove (utf8 "..")).1=[⟨.removeAll,true,[utf8 "opt",utf8 "opsagent"]⟩] ∧
    (opsagentInstaller.remove (utf8 ".")).1 =
      [⟨.removeAll,true,[utf8 "opt",utf8 "opsagent",utf8 "plugins"]⟩] ∧
    (opsagentInstaller.remove (utf8 "disk-check/installed.yaml")).1=[⟨.removeAll,true,opsagentFile⟩] ∧
    ∀ place∈[[utf8 "opt",utf8 "opsagent"],[utf8 "opt",utf8 "opsagent",utf8 "plugins"],opsagentFile],
      ¬ Effect.Allowed opsagentDisk (utf8 "/opt/opsagent/plugins") ⟨.removeAll,true,place⟩ := by
  refine ⟨by decide +kernel,by decide +kernel,by decide +kernel,?_⟩
  intro place hplace hallowed
  obtain ⟨-,rest,hne,-,heq⟩ := hallowed.inside
  have hlong:=congrArg length heq
  have hpos:=length_pos_iff.mpr hne
  have hdir : (elements (utf8 "/opt/opsagent/plugins")).length=3 := by decide +kernel
  rw [length_append,hdir] at hlong
  simp only [mem_cons,not_mem_nil,or_false] at hplace
  obtain rfl | rfl | rfl := hplace
  · simp only [length_cons,length_nil] at hlong
    omega
  · simp only [length_cons,length_nil] at hlong
    omega
  · exact absurd (hallowed.directory rfl) (by decide +kernel)

end OpsAgent.Marketplace
