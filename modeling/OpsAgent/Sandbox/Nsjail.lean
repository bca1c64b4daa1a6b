import OpsAgent.Lib.GoPath
import OpsAgent.Lib.IpAddr

/-!
# Names, arguments and network of a sandboxed task

`sandbox/nsjail.go`, `sandbox/network.go` and the part of `sandbox/stats.go` that names, limits and
removes cgroups. Strings are lists of bytes, since task IDs are cut after eight bytes.
-/

namespace OpsAgent.Sandbox
open Lib.GoStrings
open Lib.GoPath
open Lib.IpAddr

def int64 (n : Int) : Int := n.bmod 18446744073709551616

inductive TaskIDError where
  | required
  | traversal (taskID : GoString)
  | nullByte
  deriving DecidableEq

def sanitizeTaskID (taskID : GoString) : Except TaskIDError GoString :=
  if taskID=[] then .error .required
  else
    let cleaned:=clean taskID
    if cleaned=dot||cleaned=dotdot||containsAny cleaned (utf8 "/\\") then
      .error (.traversal taskID)
    else if containsAny cleaned [0] then .error .nullByte
    else .ok cleaned

theorem sanitizeTaskID_eq_ok (taskID c : GoString) :
    sanitizeTaskID taskID=.ok c ↔ taskID≠[] ∧ clean taskID=c ∧ c≠dot ∧ c≠dotdot ∧
      containsAny c (utf8 "/\\")=false ∧ containsAny c [0]=false := by
  unfold sanitizeTaskID
  split
  · rename_i h
    simp [h]
  · rename_i h
    dsimp only
    split
    · rename_i hbad
      simp only [Bool.or_eq_true,decide_eq_true_eq] at hbad
      simp only [reduceCtorEq,false_iff,not_and]
      rintro - rfl hd hdd hs
      rw [hs] at hbad
      simp [hd,hdd] at hbad
    · rename_i hgood
      simp only [Bool.or_eq_true,decide_eq_true_eq,not_or,Bool.not_eq_true] at hgood
      split
      · rename_i hnul
        simp only [reduceCtorEq,false_iff,not_and]
        rintro - rfl - - - hn
        cases hnul.symm.trans hn
      · rename_i hnul
        simp only [Except.ok.injEq]
        constructor
        · rintro rfl
          exact ⟨h,rfl,hgood.1.1,hgood.1.2,hgood.2,Bool.eq_false_iff.mpr hnul⟩
        · exact fun hc => hc.2.1

theorem sanitizeTaskID_plain {taskID c : GoString} (h : sanitizeTaskID taskID=.ok c) : Plain c := by
  obtain ⟨-,hclean,hdot,hdd,hs,-⟩ := (sanitizeTaskID_eq_ok taskID c).mp h
  refine ⟨hclean ▸ clean_ne_nil taskID,hdot,hdd,?_⟩
  intro hmem
  have hc:=List.any_eq_false.mp hs slash hmem
  exact hc (by decide)

theorem sanitizeTaskID_again {taskID c : GoString} (h : sanitizeTaskID taskID=.ok c) :
    sanitizeTaskID c=.ok c := by
  have hp:=sanitizeTaskID_plain h
  obtain ⟨-,-,hok⟩ := (sanitizeTaskID_eq_ok taskID c).mp h
  exact (sanitizeTaskID_eq_ok c c).mpr ⟨hp.ne_nil,clean_plain hp,hok⟩

def baseSyscalls : GoString :=
  utf8 "ALLOW \x7b\n" ++
  utf8 "    read, write, open, close, mmap, munmap, mprotect, brk,\n" ++
  utf8 "    access, stat, fstat, lstat, ioctl, pread64, pwrite64,\n" ++
  utf8 "    readv, writev, pipe, dup, dup2, nanosleep, getpid,\n" ++
  utf8 "    execve, exit, wait4, kill, uname,\n" ++
  utf8 "    fcntl, flock, fsync, fdatasync, truncate, ftruncate,\n" ++
  utf8 "    getdents, getcwd, chdir, rename, mkdir, rmdir, link,\n" ++
  utf8 "    unlink, readlink, chmod, chown, umask, gettimeofday,\n" ++
  utf8 "    getuid, getgid, geteuid, getegid, getppid, getpgrp,\n" ++
  utf8 "    set_tid_address, futex, epoll_create, epoll_ctl,\n" ++
  utf8 "    epoll_wait, clock_gettime, exit_group, set_robust_list,\n" ++
  utf8 "    openat, mkdirat, newfstatat, unlinkat, renameat,\n" ++
  utf8 "    readlinkat, faccessat, epoll_create1, pipe2, dup3,\n" ++
  utf8 "    prlimit64, getrandom, rseq, sigaltstack, rt_sigaction,\n" ++
  utf8 "    rt_sigprocmask, madvise, getpeername, getsockname,\n" ++
  utf8 "    timerfd_create, timerfd_settime, timerfd_gettime\n\x7d"

def networkSyscalls : GoString :=
  utf8 ",\n    socket, connect, bind, listen, accept, accept4,\n" ++
  utf8 "    sendto, recvfrom, sendmsg, recvmsg, shutdown,\n" ++
  utf8 "    setsockopt, getsockopt, socketpair, eventfd2"

structure NsjailConfig where
  (timeLimit memoryMB cpuPercent maxPIDs : Int)
  (networkMode workDir : GoString)

def allowlist : GoString := utf8 "allowlist"
def disabled : GoString := utf8 "disabled"

namespace NsjailConfig

def seccompPolicyString (c : NsjailConfig) : GoString :=
  if c.networkMode=allowlist then baseSyscalls.dropLast++networkSyscalls++utf8 "\n\x7d"
  else baseSyscalls
def limitArg (n : Int) (flag : GoString) (value : Int) : List GoString :=
  if n > 0 then [flag++decimal value] else []

/-- The arguments of `ToArgs` for a task ID that it accepts. -/
def options (c : NsjailConfig) (taskID : GoString) : List GoString :=
  [utf8 "--mode=ONCE",utf8 "--really_quiet",utf8 "--name=sandbox-"++taskID] ++
  limitArg c.timeLimit (utf8 "--time_limit=") c.timeLimit ++
  limitArg c.memoryMB (utf8 "--cgroup_mem_max=") (int64 (c.memoryMB*1024*1024)) ++
  limitArg c.cpuPercent (utf8 "--cgroup_cpu_ms_per_sec=") (int64 (c.cpuPercent*10)) ++
  limitArg c.maxPIDs (utf8 "--cgroup_pids_max=") c.maxPIDs ++
  [utf8 "--uid_mapping=0:65534:1",utf8 "--gid_mapping=0:65534:1",
   utf8 "--bindmount_ro=/usr",utf8 "--bindmount_ro=/lib",utf8 "--bindmount_ro=/lib64",
   utf8 "--bindmount_ro=/bin",utf8 "--tmpfsmount=/etc:tmpfs:size=1048576",
   utf8 "--tmpfsmount=/tmp:tmpfs:size=67108864",utf8 "--tmpfsmount=/work:tmpfs:size=134217728",
   utf8 "--seccomp_policy_string="++c.seccompPolicyString] ++
  (if c.networkMode=allowlist then [utf8 "--disable_clone_newnet"] else []) ++
  [utf8 "--cwd=" ++ if c.workDir=[] then utf8 "/work" else c.workDir]

/-- `none` is the nil slice. -/
def toArgs (c : NsjailConfig) (taskID : GoString) : Option (List GoString) :=
  match sanitizeTaskID taskID with
  | .error _ => none
  | .ok taskID => some (c.options taskID)
def commandArgs (c : NsjailConfig) (taskID command : GoString) (cmdArgs : List GoString) :
    Option (List GoString) :=
  (c.toArgs taskID).map fun args => args++[utf8 "--",command]++cmdArgs

end NsjailConfig

def interpreters : List (GoString × GoString) :=
  [(utf8 "bash",utf8 "/bin/bash"),(utf8 "sh",utf8 "/bin/sh"),
   (utf8 "python3",utf8 "/usr/bin/python3"),(utf8 "python",utf8 "/usr/bin/python3"),
   (utf8 "ruby",utf8 "/usr/bin/ruby"),(utf8 "node",utf8 "/usr/bin/node"),
   (utf8 "perl",utf8 "/usr/bin/perl")]

inductive ScriptError where
  | taskID (err : TaskIDError)
  | unsupportedInterpreter (interpreter : GoString)

def interpreterToPath (interpreter : GoString) : Except ScriptError GoString :=
  match interpreters.lookup interpreter with
  | none => .error (.unsupportedInterpreter interpreter)
  | some path => .ok path

def NsjailConfig.scriptArgs (c : NsjailConfig) (taskID interpreter scriptPath : GoString) :
    Except ScriptError (List GoString) :=
  match sanitizeTaskID taskID with
  | .error err => .error (.taskID err)
  | .ok taskID => match interpreterToPath interpreter with
    | .error err => .error err
    | .ok interpPath =>
      .ok ((c.toArgs taskID).getD []++[utf8 "--",interpPath,scriptPath])

end OpsAgent.Sandbox
