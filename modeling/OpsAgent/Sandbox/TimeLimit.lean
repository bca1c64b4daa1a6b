import OpsAgent.Lib.GoTime
import OpsAgent.Sandbox.Launch

/-!
# The time limit of a task (`sandbox/executor.go`, `sandbox/nsjail.go`)
-/

namespace OpsAgent.Sandbox
open Lib Lib.GoStrings
open Executor (second)

/- The number after `--time_limit=`, in seconds. -/
def timeLimit (args : List GoString) : Option Nat :=
  (flagsNamed (utf8 "--time_limit") args).head?.map fun arg =>
    Atoi.value 0 (arg.drop (utf8 "--time_limit=").length)

/- nsjail kills a jail that has existed for as long as its limit. Times are in nanoseconds. -/
def killedByTimeLimit (args : List GoString) (ran : Int) : Bool :=
  match timeLimit args with
  | none => false
  | some n => n*second≤ran

theorem time_flags (c : NsjailConfig) (taskID : GoString) (rest : List GoString) :
    flagsNamed (utf8 "--time_limit") (c.options taskID++utf8 "--"::rest) =
      NsjailConfig.limitArg c.timeLimit (utf8 "--time_limit=") c.timeLimit := by
  have hmemory : utf8 "--time_limit"≠utf8 "--cgroup_mem_max" := by decide
  have hcpu : utf8 "--time_limit"≠utf8 "--cgroup_cpu_ms_per_sec" := by decide
  have hpids : utf8 "--time_limit"≠utf8 "--cgroup_pids_max" := by decide
  rw [flagsNamed,flags_options]
  simp only [NsjailConfig.options,List.filter_append]
  rw [filter_limitArg _ _ (utf8 "--cgroup_mem_max=") hmemory fun _ => rfl,
    filter_limitArg _ _ (utf8 "--cgroup_cpu_ms_per_sec=") hcpu fun _ => rfl,
    filter_limitArg _ _ (utf8 "--cgroup_pids_max=") hpids fun _ => rfl]
  unfold NsjailConfig.limitArg
  by_cases hlimit : c.timeLimit > 0
  · simp only [if_pos hlimit]
    split <;> rfl
  · simp only [if_neg hlimit]
    split <;> rfl

theorem timeLimit_options (c : NsjailConfig) (taskID : GoString) (rest : List GoString) :
    timeLimit (c.options taskID++utf8 "--"::rest) =
      if c.timeLimit > 0 then some c.timeLimit.toNat else none := by
  rw [timeLimit,time_flags,NsjailConfig.limitArg]
  split
  next hpos =>
    have hnat : c.timeLimit=(c.timeLimit.toNat : Int) := (Int.toNat_of_nonneg (by omega)).symm
    have hread : Atoi.value 0 (decimal c.timeLimit)=c.timeLimit.toNat := by
      rw [hnat]
      exact (Atoi.decimal_spec _).2.2
    rw [List.head?_cons,Option.map_some,List.drop_left,hread]
  next => rfl

theorem launches_timeout {toLower : GoString → GoString} {e : Executor} {req : ExecRequest}
    {w : Answers} {l : Launch} (h : e.Launches toLower req w l) : l.timeout=e.timeout req := by
  have hrun : ∀ {nsCfg : NsjailConfig} {args : List GoString}, e.run req nsCfg args w=some l →
      l.timeout=e.timeout req := by
    intro nsCfg args hsome
    unfold Executor.run at hsome
    split at hsome
    · cases hsome
      rfl
    · cases hsome
  rcases h with h | h
  · exact hrun (Executor.executeCommand_eq_some h).2
  · obtain ⟨scriptPath,args,-,hsome⟩ := Executor.executeScript_eq_some h
    exact hrun hsome

theorem timeoutSec_pos (cfg : Config) : 0<(newExecutor cfg).cfg.timeoutSec := by
  show 0<positiveOr cfg.timeoutSec 30
  unfold positiveOr
  split <;> omega

/- With a positive maximum, the timeout is above the limit exactly if the request asks for more than
the default and the maximum allows it. -/
theorem timeout_le_iff (cfg : Config) (req : ExecRequest)
    (hmax : 0<(newExecutor cfg).cfg.maxTimeoutSec) : (newExecutor cfg).timeout req ≤
        min (newExecutor cfg).cfg.timeoutSec (newExecutor cfg).cfg.maxTimeoutSec*second ↔
      req.timeout≤(newExecutor cfg).cfg.timeoutSec*second ∨
        int64 ((newExecutor cfg).cfg.maxTimeoutSec*second) ≤
          (newExecutor cfg).cfg.timeoutSec*second := by
  have hpos:=timeoutSec_pos cfg
  unfold Executor.timeout
  generalize (newExecutor cfg).cfg.timeoutSec=t at hpos
  generalize (newExecutor cfg).cfg.maxTimeoutSec=m at hmax
  have hdefault : int64 (t*second)≤t*second := GoTime.bmod_le_self (by unfold second; omega)
  have hcap : int64 (m*second) ≤ m*second := GoTime.bmod_le_self (by unfold second; omega)
  unfold second at *
  split <;> omega

/-- The limit in the arguments leaves a command its timeout exactly if there is no limit in them (the
task ID is rejected, or the maximum is not positive), or if the timeout is at most the default. -/
theorem not_killed_before_timeout_iff (toLower : GoString → GoString) (cfg : Config)
    (req : ExecRequest) (w : Answers) (l : Launch) (h : (newExecutor cfg).Launches toLower req w l) :
    (∀ ran<l.timeout, killedByTimeLimit l.args ran=false) ↔
      (∀ t, sanitizeTaskID req.taskID ≠ .ok t) ∨ (newExecutor cfg).cfg.maxTimeoutSec≤0 ∨
        req.timeout≤(newExecutor cfg).cfg.timeoutSec*second ∨
        int64 ((newExecutor cfg).cfg.maxTimeoutSec*second) ≤
          (newExecutor cfg).cfg.timeoutSec*second := by
  rcases (Executor.launches_args h).2 with ⟨err,hs,hnil⟩ | ⟨t,rest,hs,hargs⟩
  · have hrej : ∀ t, sanitizeTaskID req.taskID ≠ .ok t := by
      intro t ht
      cases hs.symm.trans ht
    rw [hnil]
    exact iff_of_true (fun _ _ => rfl) (.inl hrej)
  · have hpos:=timeoutSec_pos cfg
    have hlimit:=timeLimit_options ((newExecutor cfg).buildNsjailConfig req) t rest
    rw [← hargs] at hlimit
    change timeLimit l.args = if min (newExecutor cfg).cfg.timeoutSec
      (newExecutor cfg).cfg.maxTimeoutSec > 0 then _ else none at hlimit
    rw [or_iff_right fun hrej => hrej t hs]
    by_cases hmax : 0<(newExecutor cfg).cfg.maxTimeoutSec
    · rw [if_pos (lt_min hpos hmax)] at hlimit
      rw [or_iff_right (by omega),← timeout_le_iff cfg req hmax,launches_timeout h]
      have hnat : ((min (newExecutor cfg).cfg.timeoutSec
          (newExecutor cfg).cfg.maxTimeoutSec).toNat : Int) =
          min (newExecutor cfg).cfg.timeoutSec (newExecutor cfg).cfg.maxTimeoutSec :=
        Int.toNat_of_nonneg (by omega)
      have hkilled : ∀ ran, killedByTimeLimit l.args ran =
          decide (min (newExecutor cfg).cfg.timeoutSec (newExecutor cfg).cfg.maxTimeoutSec*second ≤
            ran) := by
        intro ran
        rw [killedByTimeLimit,hlimit]
        exact congrArg (fun n => decide (n*second≤ran)) hnat
      constructor
      · intro hall
        by_contra hlt
        exact absurd (hall _ (not_le.mp hlt)) (by simp [hkilled])
      · intro hle ran hran
        rw [hkilled,decide_eq_false_iff_not]
        omega
    · rw [if_neg (by omega)] at hlimit
      refine iff_of_true (fun ran _ => ?_) (.inl (by omega))
      rw [killedByTimeLimit,hlimit]

def curlFor (timeout : Int) : ExecRequest := {curlRequest [] with timeout := timeout}

theorem not_killed_before_timeout_curl :
    ∃ l, (newExecutor curlConfig).Launches id (curlFor (10*second)) (answers fun _ => true) l ∧
      ∀ ran<l.timeout, killedByTimeLimit l.args ran=false := by
  obtain ⟨l,hl⟩ : ∃ l, (newExecutor curlConfig).executeCommand (curlFor (10*second))
      (answers fun _ => true)=some l := ⟨_,rfl⟩
  exact ⟨l,.inl hl,(not_killed_before_timeout_iff id curlConfig (curlFor (10*second))
    (answers fun _ => true) l (.inl hl)).mpr (.inr (.inr (.inl (by decide))))⟩

theorem killed_before_timeout :
    ∃ l, (newExecutor curlConfig).executeCommand (curlFor (60*second)) (answers fun _ => true) =
        some l ∧ l.timeout=60*second ∧ killedByTimeLimit l.args (30*second)=true :=
  ⟨_,rfl,by decide +kernel,by decide +kernel⟩

end OpsAgent.Sandbox
