import OpsAgent.Sandbox.Host
import OpsAgent.Sandbox.Policy

/-!
# Launching nsjail (`sandbox/executor.go`)

`ExecuteCommand` and `ExecuteScript` up to the start of the process. What the outside world does
is in `Answers`.
-/

namespace OpsAgent.Sandbox
open Lib.GoStrings

structure Config where
  (nsjailPath workDir cgroupBase : GoString)
  (memoryMB cpuPercent maxPIDs timeoutSec maxTimeoutSec maxOutputKB : Int)
  networkMode : GoString
  policy : Policy

structure SandboxOverride where
  (memoryMB cpuPercent maxPIDs : Int)
  networkMode : GoString
  allowedIPs : List GoString
  maxOutputKB : Int

structure ExecRequest where
  (taskID command : GoString)
  args : List GoString
  (script interpreter : GoString)
  -- in the order in which the range over the map meets it
  env : List (GoString × GoString)
  timeout : Int
  sandboxCfg : Option SandboxOverride

structure Executor where
  cfg : Config
  net : NetworkManager

def positiveOr (n default : Int) : Int := if n≤0 then default else n

def newExecutor (cfg : Config) : Executor :=
  let timeoutSec:=positiveOr cfg.timeoutSec 30
  let networkMode := if cfg.networkMode=[] then disabled else cfg.networkMode
  { cfg :=
      { cfg with
        nsjailPath := if cfg.nsjailPath=[] then utf8 "nsjail" else cfg.nsjailPath
        workDir := if cfg.workDir=[] then utf8 "/work" else cfg.workDir
        memoryMB := positiveOr cfg.memoryMB 128
        cpuPercent := positiveOr cfg.cpuPercent 50
        maxPIDs := positiveOr cfg.maxPIDs 32
        timeoutSec := timeoutSec
        maxTimeoutSec := positiveOr cfg.maxTimeoutSec (int64 (timeoutSec*10))
        maxOutputKB := positiveOr cfg.maxOutputKB 512
        networkMode := networkMode}
    net := ⟨networkMode != disabled⟩}

/-- What the outside world does in one execution. -/
structure Answers where
  slot : Bool
  scriptPath : Option GoString
  -- the cgroup directory can be made, and limit `i` can be written
  mkdir : Bool
  limit : Nat → Bool
  -- command `i` that sets the network up works
  network : Nat → Bool
  start : Bool

structure Launch where
  path : GoString
  (args env : List GoString)
  timeout : Int
  -- the allowlist rules for a list of addresses that is not empty were installed
  rules : Bool

def sandboxAllowedEnvVars : List GoString :=
  [utf8 "PATH",utf8 "HOME",utf8 "LANG",utf8 "TERM",utf8 "USER",utf8 "SHELL",utf8 "HOSTNAME",
   utf8 "TMPDIR"]
def buildSandboxEnv (reqEnv : List (GoString × GoString)) : List GoString :=
  [utf8 "PATH=/usr/local/sbin:/usr/local/bin:/usr/sbin:/usr/bin:/sbin:/bin",utf8 "HOME=/tmp",
   utf8 "LANG=C"] ++
  (reqEnv.filter fun kv => sandboxAllowedEnvVars.contains kv.1).map fun kv => kv.1++utf8 "="++kv.2

namespace Executor

def override (n cap default : Int) : Int := if n > 0 then min n cap else default
def networkMode (e : Executor) (req : ExecRequest) : GoString :=
  match req.sandboxCfg with
  | none => e.cfg.networkMode
  | some o => if o.networkMode≠[] then o.networkMode else e.cfg.networkMode

def buildNsjailConfig (e : Executor) (req : ExecRequest) : NsjailConfig where
  timeLimit := min e.cfg.timeoutSec e.cfg.maxTimeoutSec
  memoryMB := req.sandboxCfg.elim e.cfg.memoryMB fun o => override o.memoryMB 1024 e.cfg.memoryMB
  cpuPercent := req.sandboxCfg.elim e.cfg.cpuPercent fun o => override o.cpuPercent 100 e.cfg.cpuPercent
  maxPIDs := req.sandboxCfg.elim e.cfg.maxPIDs fun o => override o.maxPIDs 256 e.cfg.maxPIDs
  networkMode := e.networkMode req
  workDir := e.cfg.workDir

def setupCgroup (e : Executor) (req : ExecRequest) (nsCfg : NsjailConfig) (w : Answers) : Bool :=
  if e.cfg.cgroupBase=[] then true
  else match cgroupPath e.cfg.cgroupBase req.taskID with
    | .error _ => false
    | .ok path => w.mkdir &&
        (cgroupLimits path nsCfg.memoryMB nsCfg.cpuPercent nsCfg.maxPIDs).zipIdx.all fun file => w.limit file.2

/-- The network part of `run`. An error of the set-up is only logged. -/
def setupNetwork (e : Executor) (req : ExecRequest) (nsCfg : NsjailConfig) (w : Answers) : Bool :=
  match req.sandboxCfg with
  | none => false
  | some o => nsCfg.networkMode=allowlist&&o.allowedIPs≠[] &&
      (e.net.setupAllowlistNetwork w.network req.taskID o.allowedIPs).isNone

def second : Int := 1000000000
def timeout (e : Executor) (req : ExecRequest) : Int :=
  min (if req.timeout≤0 then int64 (e.cfg.timeoutSec*second) else req.timeout)
    (int64 (e.cfg.maxTimeoutSec*second))

def run (e : Executor) (req : ExecRequest) (nsCfg : NsjailConfig) (nsjailArgs : List GoString)
    (w : Answers) : Option Launch :=
  if w.slot&&e.setupCgroup req nsCfg w&&w.start then
    some
      { path := e.cfg.nsjailPath
        args := nsjailArgs
        env := buildSandboxEnv req.env
        timeout := e.timeout req
        rules := e.setupNetwork req nsCfg w}
  else none

def executeCommand (e : Executor) (req : ExecRequest) (w : Answers) : Option Launch :=
  match e.cfg.policy.validateCommand req.command req.args with
  | some _ => none
  | none =>
    let nsCfg:=e.buildNsjailConfig req
    -- the nil slice is an empty argument list
    e.run req nsCfg ((nsCfg.commandArgs req.taskID req.command req.args).getD []) w

def executeScript (toLower : GoString → GoString) (e : Executor) (req : ExecRequest) (w : Answers) :
    Option Launch :=
  match e.cfg.policy.validateScript toLower req.interpreter req.script with
  | some _ => none
  | none =>
    let nsCfg:=e.buildNsjailConfig req
    match sanitizeTaskID req.taskID, w.scriptPath with
    | .ok _, some scriptPath =>
      match nsCfg.scriptArgs req.taskID req.interpreter scriptPath with
      | .error _ => none
      | .ok args => e.run req nsCfg args w
    | _, _ => none

end Executor
end OpsAgent.Sandbox
