import OpsAgent.Sandbox.Nsjail

/-!
# What a sandboxed task has on the host

Sources: `sandbox/stats.go`, `sandbox/network.go`.
-/

namespace OpsAgent.Sandbox
open Lib.GoStrings List
open Lib.GoPath
open Lib.IpAddr

def cgroupName (taskID : GoString) : GoString := utf8 "sandbox-"++taskID
def cgroupPath (basePath taskID : GoString) : Except TaskIDError GoString :=
  match sanitizeTaskID taskID with
  | .error err => .error err
  | .ok taskID => .ok (join [basePath,cgroupName taskID])

def cgroupLimits (cgroupPath : GoString) (memoryMB cpuPercent maxPIDs : Int) :
    List (GoString × GoString) :=
  (if memoryMB > 0 then
    [(join [cgroupPath,utf8 "memory.max"],decimal (int64 (memoryMB*1024*1024)))] else []) ++
  (if cpuPercent > 0 then
    [(join [cgroupPath,utf8 "cpu.max"],
      decimal ((int64 (cpuPercent*100000)).tdiv 100)++utf8 " 100000")] else []) ++
  (if maxPIDs > 0 then [(join [cgroupPath,utf8 "pids.max"],decimal maxPIDs)] else [])

def killFile (cgroupPath : GoString) : GoString := join [cgroupPath,utf8 "cgroup.kill"]

variable {c taskID : GoString}

theorem plain_append {m : GoString} (hc : Plain c) (hs : slash∉m) (hlen : 2 < m.length) :
    Plain (m++c) := by
  have hlong : 2<(m++c).length := by
    rw [length_append]
    omega
  refine ⟨?_,?_,?_,?_⟩
  · intro h
    rw [h] at hlong
    exact absurd hlong (by decide)
  · intro h
    rw [h] at hlong
    exact absurd hlong (by decide)
  · intro h
    rw [h] at hlong
    exact absurd hlong (by decide)
  · intro h
    rcases mem_append.mp h with h | h
    · exact hs h
    · exact hc.no_slash h

theorem cgroupName_plain (hc : Plain c) : Plain (cgroupName c) :=
  plain_append hc (by decide) (by decide)
theorem cgroupPath_of_ok (basePath : GoString) (h : sanitizeTaskID taskID=.ok c) :
    cgroupPath basePath taskID=.ok (join [basePath,cgroupName c]) := by rw [cgroupPath,h]

/-- A sanitized task identifier never leads out of the base directory. -/
theorem cgroup_in_base (taskID basePath c : GoString) (habs : isAbs basePath=true)
    (h : sanitizeTaskID taskID=.ok c) :
    ∃ p, cgroupPath basePath taskID=.ok p ∧ isAbs p=true ∧ DirectChild basePath p ∧
      DirectChild p (killFile p) := by
  have hne : basePath≠[] := by
    intro hnil
    rw [hnil] at habs
    cases habs
  have hn:=cgroupName_plain (sanitizeTaskID_plain h)
  have hchild:=directChild_join hne hn
  have hp : join [basePath,cgroupName c]≠[] := by
    intro hnil
    have he:=hchild.isAbs_eq
    rw [hnil,habs] at he
    cases he
  refine ⟨_,cgroupPath_of_ok basePath h,hchild.isAbs_eq.trans habs,hchild,?_⟩
  exact directChild_join hp ⟨by decide,by decide,by decide,by decide⟩

theorem cgroup_in_base_dotted : sanitizeTaskID (utf8 "./job-7/")=.ok (utf8 "job-7") ∧
      ∃ p, cgroupPath (utf8 "/sys/fs/../fs/cgroup") (utf8 "./job-7/")=.ok p ∧ isAbs p=true ∧
        DirectChild (utf8 "/sys/fs/../fs/cgroup") p ∧ DirectChild p (killFile p) :=
  ⟨by decide,cgroup_in_base _ _ (utf8 "job-7") (by decide) (by decide)⟩

structure NetworkManager where
  enabled : Bool

inductive NetworkError where
  | taskID (err : TaskIDError)
  | notEnabled | emptyIP
  | invalidCIDR (ip : GoString)
  | invalidIP (ip : GoString)
  | command (argv : List GoString)

def truncateID (s : GoString) (n : Nat) : GoString := if s.length≤n then s else s.take n
def vethHost (taskID : GoString) : GoString := utf8 "veth-h-"++truncateID taskID 8
def vethGuest (taskID : GoString) : GoString := utf8 "veth-g-"++truncateID taskID 8

def validateIP (ip : GoString) : Option NetworkError :=
  let ip:=trimSpaces ip
  if ip=[] then some .emptyIP
  else if contains ip (utf8 "/") then if parseCIDR ip then none else some (.invalidCIDR ip)
  else if parseIP ip then none else some (.invalidIP ip)

def validateIPList (ips : List GoString) : Option NetworkError := ips.findSome? validateIP

/-- The commands of `SetupAllowlistNetwork`, in order. -/
def allowlistCommands (taskID : GoString) (allowedIPs : List GoString) : List (List GoString) :=
  let host:=vethHost taskID
  [[utf8 "ip",utf8 "link",utf8 "add",host,utf8 "type",utf8 "veth",utf8 "peer",utf8 "name",
      vethGuest taskID],
    [utf8 "ip",utf8 "link",utf8 "set",host,utf8 "up"]] ++
  (allowedIPs.map fun ip => [utf8 "iptables",utf8 "-A",utf8 "OUTPUT",utf8 "-o",host,utf8 "-d",ip,
    utf8 "-j",utf8 "ACCEPT"]) ++
  [[utf8 "iptables",utf8 "-A",utf8 "OUTPUT",utf8 "-o",host,utf8 "-j",utf8 "DROP"]]

def runCmds (works : Nat → Bool) (cmds : List (List GoString)) : Option NetworkError :=
  (cmds.zipIdx.find? fun cmd => !works cmd.2).map fun cmd => .command cmd.1

def NetworkManager.setupAllowlistNetwork (nm : NetworkManager) (works : Nat → Bool)
    (taskID : GoString) (allowedIPs : List GoString) : Option NetworkError :=
  match sanitizeTaskID taskID with
  | .error err => some (.taskID err)
  | .ok taskID =>
    if nm.enabled=false then some .notEnabled
    else match validateIPList allowedIPs with
      | some err => some err
      | none => runCmds works (allowlistCommands taskID allowedIPs)

/-- The commands of the set-up that are carried out: those before the first that fails. -/
def NetworkManager.ran (nm : NetworkManager) (works : Nat → Bool) (taskID : GoString)
    (allowedIPs : List GoString) : List (List GoString) :=
  match sanitizeTaskID taskID with
  | .error _ => []
  | .ok taskID =>
    if nm.enabled=false∨(validateIPList allowedIPs).isSome then []
    else ((allowlistCommands taskID allowedIPs).zipIdx.takeWhile fun cmd => works cmd.2).map (·.1)

/-- The one command of `CleanupNetwork`. -/
def cleanupCommands (taskID : GoString) : List (List GoString) :=
  match sanitizeTaskID taskID with
  | .error _ => []
  | .ok taskID => [[utf8 "ip",utf8 "link",utf8 "del",vethHost taskID]]

def addsRule (argv : List GoString) : Bool := argv.take 2=[utf8 "iptables",utf8 "-A"]

/-- The command that takes back what a command makes. A rule stays in its chain when the interface
it names is deleted. -/
def undo (argv : List GoString) : Option (List GoString) :=
  if addsRule argv then some (utf8 "iptables"::utf8 "-D"::argv.drop 2)
  else if argv.take 3=[utf8 "ip",utf8 "link",utf8 "add"] then
    some [utf8 "ip",utf8 "link",utf8 "del",argv.getD 3 []]
  else none

structure Host where
  cgroups : List (GoString × List Nat)
  veths : List (GoString × GoString)

namespace Host

/-- Writing to `cgroup.kill` kills what is in the cgroup and below it. -/
def killCgroupProcesses (h : Host) (path : GoString) : Host :=
  {h with cgroups := h.cgroups.map fun d => if inside path d.1 then (d.1,[]) else d}
def removeCgroup (h : Host) (path : GoString) : Host :=
  {h with cgroups := h.cgroups.filter fun d => !inside path d.1}

/-- `ip link del` with one end of a pair removes both. -/
def cleanupNetwork (h : Host) (taskID : GoString) : Host :=
  match sanitizeTaskID taskID with
  | .error _ => h
  | .ok taskID => {h with veths := h.veths.filter fun v => v.1 != vethHost taskID&&v.2 != vethHost taskID}

def cleanup (h : Host) (basePath taskID : GoString) : Host :=
  let h:=h.cleanupNetwork taskID
  match cgroupPath basePath taskID with
  | .error _ => h
  | .ok path => (h.killCgroupProcesses path).removeCgroup path

def Spares (h h' : Host) (path taskID : GoString) : Prop :=
  h'.cgroups.lookup path=h.cgroups.lookup path ∧
  ((vethHost taskID,vethGuest taskID)∈h'.veths ↔ (vethHost taskID,vethGuest taskID)∈h.veths)

end Host

variable (h : Host) {path p : GoString}

theorem lookup_killed (hp : inside path p=false) :
    (h.killCgroupProcesses path).cgroups.lookup p=h.cgroups.lookup p := by
  unfold Host.killCgroupProcesses
  dsimp only
  induction h.cgroups with
  | nil => rfl
  | cons d ds ih =>
    by_cases hd : p=d.1
    · rw [map_cons,← hd,hp]
      simp only [Bool.false_eq_true,if_false]
      rw [lookup_cons,lookup_cons,hd,beq_self_eq_true]
    · have hkey : (if inside path d.1 then (d.1,[]) else d).1=d.1 := by split <;> rfl
      rw [map_cons,lookup_cons,lookup_cons,hkey,beq_false_of_ne hd]
      exact ih

theorem lookup_removed (hp : inside path p=false) :
    (h.removeCgroup path).cgroups.lookup p=h.cgroups.lookup p := by
  unfold Host.removeCgroup
  dsimp only
  induction h.cgroups with
  | nil => rfl
  | cons d ds ih =>
    by_cases hd : p=d.1
    · rw [filter_cons,← hd,hp]
      simp only [Bool.not_false,if_true]
      rw [lookup_cons,lookup_cons,hd,beq_self_eq_true]
    · rw [lookup_cons,beq_false_of_ne hd,← ih,filter_cons]
      split
      · rw [lookup_cons,beq_false_of_ne hd]
      · rfl

theorem vethHost_inj (c d : GoString) :
    vethHost c=vethHost d ↔ truncateID c 8=truncateID d 8 := append_right_inj _
theorem vethGuest_inj (c d : GoString) :
    vethGuest c=vethGuest d ↔ truncateID c 8=truncateID d 8 := append_right_inj _
theorem vethGuest_ne_vethHost (c d : GoString) : vethGuest c≠vethHost d := by
  intro h
  have hname : utf8 "veth-g-"=utf8 "veth-h-" := (append_inj h (by decide)).1
  exact absurd hname (by decide)

theorem mem_cleanupNetwork (ha : sanitizeTaskID taskID=.ok c)
    (d : GoString) (hcd : truncateID c 8≠truncateID d 8) :
    (vethHost d,vethGuest d)∈(h.cleanupNetwork taskID).veths ↔ (vethHost d,vethGuest d)∈h.veths := by
  have hhost : (vethHost d != vethHost c)=true :=
    bne_iff_ne.mpr fun he => hcd ((vethHost_inj d c).mp he).symm
  have hguest : (vethGuest d != vethHost c)=true := bne_iff_ne.mpr (vethGuest_ne_vethHost d c)
  simp [Host.cleanupNetwork,ha,hhost,hguest]

theorem cleanup_veths (basePath : GoString) (ha : sanitizeTaskID taskID=.ok c) :
    (h.cleanup basePath taskID).veths=(h.cleanupNetwork taskID).veths := by
  rw [Host.cleanup,cgroupPath_of_ok basePath ha]
  rfl

theorem cleanup_cgroups (basePath : GoString) {d : GoString}
    (ha : sanitizeTaskID taskID=.ok c) (hd : Plain d) (hcd : c≠d) :
    (h.cleanup basePath taskID).cgroups.lookup (join [basePath,cgroupName d]) =
      h.cgroups.lookup (join [basePath,cgroupName d]) := by
  have hc:=sanitizeTaskID_plain ha
  have hout : inside (join [basePath,cgroupName c]) (join [basePath,cgroupName d])=false := by
    rw [← Bool.not_eq_true,inside_join basePath (cgroupName_plain hc) (cgroupName_plain hd)]
    exact fun he => hcd (append_cancel_left he)
  have hnet : (h.cleanupNetwork taskID).cgroups=h.cgroups := by rw [Host.cleanupNetwork,ha]
  rw [Host.cleanup,cgroupPath_of_ok basePath ha]
  dsimp only
  rw [lookup_removed _ hout,lookup_killed _ hout,hnet]

/-- Two tasks have different directories and interfaces, and cleaning up after the
first one leaves those of the second one alone. -/
def Separate (basePath a b : GoString) : Prop :=
  ∀ c d p q, sanitizeTaskID a=.ok c → sanitizeTaskID b=.ok d →
    cgroupPath basePath a=.ok p → cgroupPath basePath b=.ok q →
    p≠q ∧ vethHost c≠vethHost d ∧ vethGuest c≠vethGuest d ∧
      ∀ h : Host, h.Spares (h.cleanup basePath a) q d

/-- Accepted task IDs keep two tasks apart exactly if they differ in the first eight
bytes once they are cleaned. -/
theorem separate_iff (basePath a b c d : GoString) (ha : sanitizeTaskID a=.ok c)
    (hb : sanitizeTaskID b=.ok d) : Separate basePath a b ↔ truncateID c 8≠truncateID d 8 := by
  have hpa:=cgroupPath_of_ok basePath ha
  have hpb:=cgroupPath_of_ok basePath hb
  constructor
  · intro hsep heq
    exact (hsep c d _ _ ha hb hpa hpb).2.1 ((vethHost_inj c d).mpr heq)
  · intro hne c' d' p q ha' hb' hp hq
    rw [ha,Except.ok.injEq] at ha'
    rw [hb,Except.ok.injEq] at hb'
    rw [hpa,Except.ok.injEq] at hp
    rw [hpb,Except.ok.injEq] at hq
    subst ha' hb' hp hq
    have hcd : c≠d := fun he => hne (congrArg (truncateID · 8) he)
    refine ⟨?_,?_,?_,?_⟩
    · intro he
      have hc:=cgroupName_plain (sanitizeTaskID_plain ha)
      have hd:=cgroupName_plain (sanitizeTaskID_plain hb)
      rw [join_name basePath hc,join_name basePath hd] at he
      exact hcd (append_cancel_left (append_cancel_left he))
    · exact fun he => hne ((vethHost_inj c d).mp he)
    · exact fun he => hne ((vethGuest_inj c d).mp he)
    · intro h
      refine ⟨cleanup_cgroups h basePath ha (sanitizeTaskID_plain hb) hcd,?_⟩
      rw [cleanup_veths h basePath ha]
      exact mem_cleanupNetwork h ha d hne

theorem separate_uuids : sanitizeTaskID (utf8 "3f2a9c1e-7d40")=.ok (utf8 "3f2a9c1e-7d40") ∧
      Separate (utf8 "/sys/fs/cgroup") (utf8 "3f2a9c1e-7d40") (utf8 "8b61d0aa-19ce") :=
  ⟨by decide,(separate_iff _ _ _ (utf8 "3f2a9c1e-7d40") (utf8 "8b61d0aa-19ce") (by decide)
    (by decide)).mpr (by decide)⟩

theorem tasks_share_names :
    ((⟨[],[(vethHost (utf8 "nightly-backup-2"),vethGuest (utf8 "nightly-backup-2"))]⟩ :
      Host).cleanup (utf8 "/sys/fs/cgroup") (utf8 "nightly-backup-1")).veths=[] ∧
    cgroupPath (utf8 "/sys/fs/cgroup") (utf8 "job")=cgroupPath (utf8 "/sys/fs/cgroup") (utf8 "job/") ∧
    ¬ ∀ basePath a b, a≠b → Separate basePath a b := by
  refine ⟨by decide,by decide,?_⟩
  intro h
  have hs:=h (utf8 "/sys/fs/cgroup") (utf8 "nightly-backup-1") (utf8 "nightly-backup-2") (by decide)
    (utf8 "nightly-backup-1") (utf8 "nightly-backup-2") _ _ (by decide) (by decide) rfl rfl
  exact hs.2.1 (by decide)

end OpsAgent.Sandbox
