import OpsAgent.Sandbox.Executor

/-!
# What nsjail is launched with
-/

namespace OpsAgent.Sandbox
open Lib.GoStrings List Option

def flags (args : List GoString) : List GoString := args.takeWhile (· != utf8 "--")
def flagName (arg : GoString) : GoString := arg.takeWhile (· != 0x3d)
def flagsNamed (name : GoString) (args : List GoString) : List GoString :=
  (flags args).filter fun arg => flagName arg == name
def sharesNetwork (args : List GoString) : Bool :=
  !(flagsNamed (utf8 "--disable_clone_newnet") args).isEmpty
def allowsNetworkSyscalls (args : List GoString) : Bool :=
  (flagsNamed (utf8 "--seccomp_policy_string") args).any fun arg => contains arg networkSyscalls
def Isolated (args : List GoString) : Prop :=
  sharesNetwork args=false ∧ allowsNetworkSyscalls args=false

theorem all_limitArg {p : GoString → Bool} (n value : Int) (flag : GoString)
    (h : ∀ x, p (flag++x)) : (NsjailConfig.limitArg n flag value).all p := by
  unfold NsjailConfig.limitArg
  split
  · rw [all_cons,h,all_nil,Bool.and_self]
  · rfl

theorem filter_limitArg {own name : GoString} (n value : Int) (flag : GoString)
    (hname : name≠own) (hflag : ∀ x, flagName (flag++x)=own) :
    ((NsjailConfig.limitArg n flag value).filter fun arg => flagName arg == name)=[] := by
  unfold NsjailConfig.limitArg
  split
  · rw [filter_cons,hflag,beq_false_of_ne hname.symm,filter_nil]
    rfl
  · rfl

variable (c : NsjailConfig)

theorem options_no_dashes (taskID : GoString) :
    (c.options taskID).all (· != utf8 "--")=true := by
  simp only [NsjailConfig.options,all_append,Bool.and_eq_true]
  refine ⟨⟨⟨⟨⟨⟨⟨rfl,?_⟩,?_⟩,?_⟩,?_⟩,rfl⟩,?_⟩,rfl⟩
  · exact all_limitArg _ _ _ fun x => rfl
  · exact all_limitArg _ _ _ fun x => rfl
  · exact all_limitArg _ _ _ fun x => rfl
  · exact all_limitArg _ _ _ fun x => rfl
  · split <;> rfl

theorem flags_options (taskID : GoString) (rest : List GoString) :
    flags (c.options taskID++utf8 "--"::rest)=c.options taskID := by
  have hall:=all_eq_true.mp (options_no_dashes c taskID)
  rw [flags,takeWhile_append_of_pos hall,takeWhile_cons]
  simp

theorem flagsNamed_options (taskID : GoString) (rest : List GoString)
    {name : GoString} (hname : name∉[utf8 "--time_limit",utf8 "--cgroup_mem_max",
      utf8 "--cgroup_cpu_ms_per_sec",utf8 "--cgroup_pids_max"]) :
    flagsNamed name (c.options taskID++utf8 "--"::rest) =
      ({c with timeLimit := 0, memoryMB := 0, cpuPercent := 0, maxPIDs := 0}.options taskID).filter
        fun arg => flagName arg == name := by
  simp only [mem_cons,not_mem_nil,or_false,not_or] at hname
  obtain ⟨htime,hmemory,hcpu,hpids⟩ := hname
  rw [flagsNamed,flags_options]
  simp only [NsjailConfig.options,filter_append]
  rw [filter_limitArg _ _ _ htime fun _ => rfl,filter_limitArg _ _ _ hmemory fun _ => rfl,
    filter_limitArg _ _ _ hcpu fun _ => rfl,filter_limitArg _ _ _ hpids fun _ => rfl]
  rfl

theorem newnet_flags (taskID : GoString) (rest : List GoString) :
    flagsNamed (utf8 "--disable_clone_newnet") (c.options taskID++utf8 "--"::rest) =
      if c.networkMode=allowlist then [utf8 "--disable_clone_newnet"] else [] := by
  rw [flagsNamed_options c taskID rest (by decide),NsjailConfig.options]
  split <;> rfl

theorem seccomp_flags (taskID : GoString) (rest : List GoString) :
    flagsNamed (utf8 "--seccomp_policy_string") (c.options taskID++utf8 "--"::rest) =
      [utf8 "--seccomp_policy_string="++c.seccompPolicyString] := by
  rw [flagsNamed_options c taskID rest (by decide),NsjailConfig.options]
  split <;> rfl

theorem base_without_network :
    contains (utf8 "--seccomp_policy_string="++baseSyscalls) networkSyscalls=false := by
  decide +kernel

theorem isolated_options (taskID : GoString) (rest : List GoString) :
    Isolated (c.options taskID++utf8 "--"::rest) ↔ c.networkMode≠allowlist := by
  rw [Isolated,sharesNetwork,allowsNetworkSyscalls,newnet_flags,seccomp_flags]
  by_cases hmode : c.networkMode=allowlist
  · simp [hmode]
  · rw [if_neg hmode,NsjailConfig.seccompPolicyString,if_neg hmode,any_cons,base_without_network]
    simp [hmode]

namespace Executor

def Launches (toLower : GoString → GoString) (e : Executor) (req : ExecRequest) (w : Answers)
    (l : Launch) : Prop :=
  e.executeCommand req w=some l ∨ e.executeScript toLower req w=some l

variable {req : ExecRequest} {t taskID : GoString} {e : Executor} {w : Answers} {l : Launch}
  {args : List GoString} {toLower : GoString → GoString}

theorem run_eq_some {nsCfg : NsjailConfig} (h : e.run req nsCfg args w=some l) :
    l.args=args ∧ l.rules=e.setupNetwork req nsCfg w := by
  unfold run at h
  split at h
  · cases h
    exact ⟨rfl,rfl⟩
  · cases h

theorem executeCommand_eq_some
    (h : e.executeCommand req w=some l) : e.cfg.policy.validateCommand req.command req.args=none ∧
      e.run req (e.buildNsjailConfig req)
        (((e.buildNsjailConfig req).commandArgs req.taskID req.command req.args).getD []) w=some l := by
  unfold executeCommand at h
  split at h
  · cases h
  · exact ⟨‹_›,h⟩

theorem executeScript_eq_some (h : e.executeScript toLower req w=some l) : ∃ scriptPath args,
      (e.buildNsjailConfig req).scriptArgs req.taskID req.interpreter scriptPath=.ok args ∧
      e.run req (e.buildNsjailConfig req) args w=some l := by
  unfold executeScript at h
  split at h
  · cases h
  · dsimp only at h
    split at h
    · rename_i scriptPath _ _
      split at h
      · cases h
      · exact ⟨scriptPath,_,‹_›,h⟩
    · cases h

theorem commandArgs_of_ok (c : NsjailConfig) (h : sanitizeTaskID taskID=.ok t)
    (command : GoString) (args : List GoString) :
    c.commandArgs taskID command args=some (c.options t++utf8 "--"::command::args) := by
  rw [NsjailConfig.commandArgs,NsjailConfig.toArgs,h]
  simp

theorem commandArgs_of_error (c : NsjailConfig) {err : TaskIDError}
    (h : sanitizeTaskID taskID=.error err) (command : GoString) (args : List GoString) :
    c.commandArgs taskID command args=none := by
  rw [NsjailConfig.commandArgs,NsjailConfig.toArgs,h]
  rfl

theorem scriptArgs_eq_ok {c : NsjailConfig} {interpreter scriptPath : GoString} (h : c.scriptArgs taskID interpreter scriptPath=.ok args) :
    ∃ t interpPath, sanitizeTaskID taskID=.ok t ∧
      args=c.options t++utf8 "--"::[interpPath,scriptPath] := by
  unfold NsjailConfig.scriptArgs at h
  split at h
  · cases h
  · rename_i t hs
    split at h
    · cases h
    · rename_i interpPath _
      cases h
      refine ⟨t,interpPath,hs,?_⟩
      rw [NsjailConfig.toArgs,sanitizeTaskID_again hs]
      rfl

theorem launches_args (h : e.Launches toLower req w l) :
    l.rules=e.setupNetwork req (e.buildNsjailConfig req) w ∧
      ((∃ err, sanitizeTaskID req.taskID=.error err ∧ l.args=[]) ∨
        ∃ t rest, sanitizeTaskID req.taskID=.ok t ∧
          l.args=(e.buildNsjailConfig req).options t++utf8 "--"::rest) := by
  rcases h with h | h
  · obtain ⟨-,hrun⟩ := executeCommand_eq_some h
    obtain ⟨hargs,hrules⟩ := run_eq_some hrun
    refine ⟨hrules,?_⟩
    cases hs : sanitizeTaskID req.taskID with
    | error err =>
      rw [commandArgs_of_error _ hs] at hargs
      exact .inl ⟨err,rfl,hargs⟩
    | ok t =>
      rw [commandArgs_of_ok _ hs] at hargs
      exact .inr ⟨t,_,rfl,hargs⟩
  · obtain ⟨scriptPath,args,hscript,hrun⟩ := executeScript_eq_some h
    obtain ⟨hargs,hrules⟩ := run_eq_some hrun
    obtain ⟨t,interpPath,hs,rfl⟩ := scriptArgs_eq_ok hscript
    exact ⟨hrules,.inr ⟨t,_,hs,hargs⟩⟩

theorem runCmds_eq_none (works : Nat → Bool) (cmds : List (List GoString)) :
    runCmds works cmds=none ↔ ∀ i<cmds.length, works i := by
  rw [runCmds,map_eq_none_iff,find?_eq_none]
  constructor
  · intro h i hi
    have hat:=h (cmds[i],i) (mem_zipIdx_iff_getElem?.mpr (getElem?_eq_getElem hi))
    rwa [Bool.not_eq_true,Bool.not_eq_false'] at hat
  · intro h cmd hmem
    have hat : cmds[cmd.2]?=some cmd.1 := mem_zipIdx_iff_getElem?.mp hmem
    have hlt : cmd.2<cmds.length := (List.getElem?_eq_some_iff.mp hat).1
    rw [h cmd.2 hlt]
    decide

theorem allowlistCommands_length (taskID : GoString) (allowedIPs : List GoString) :
    (allowlistCommands taskID allowedIPs).length=allowedIPs.length+3 := by
  simp only [allowlistCommands,length_append,length_map,length_cons,length_nil]
  omega

/-- The rules for a list of addresses can be installed, and every command does its part. -/
structure RulesInstalled (e : Executor) (o : SandboxOverride) (w : Answers) : Prop where
  some_ip : o.allowedIPs≠[]
  enabled : e.net.enabled
  valid : validateIPList o.allowedIPs=none
  works : ∀ i<o.allowedIPs.length+3, w.network i

theorem setupAllowlistNetwork_eq_none (e : Executor) (w : Answers)
    (hs : sanitizeTaskID taskID=.ok t) (ips : List GoString) :
    e.net.setupAllowlistNetwork w.network taskID ips=none ↔
      e.net.enabled ∧ validateIPList ips=none ∧ ∀ i < ips.length+3, w.network i := by
  rw [NetworkManager.setupAllowlistNetwork,hs]
  dsimp only
  split
  · rename_i hoff
    simp [hoff]
  · rename_i hon
    rw [Bool.not_eq_false] at hon
    split
    · rename_i err hv
      simp [hv]
    · rename_i hv
      rw [runCmds_eq_none,allowlistCommands_length]
      simp [hon,hv]

theorem setupNetwork_eq_true (e : Executor) (req : ExecRequest) (w : Answers)
    (hs : sanitizeTaskID req.taskID=.ok t) : e.setupNetwork req (e.buildNsjailConfig req) w ↔
      e.networkMode req=allowlist ∧ ∃ o, req.sandboxCfg=some o ∧ RulesInstalled e o w := by
  unfold setupNetwork
  cases req.sandboxCfg with
  | none => simp
  | some o =>
    simp only [Bool.and_eq_true,decide_eq_true_eq,isNone_iff_eq_none,
      setupAllowlistNetwork_eq_none e w hs,some.injEq,exists_eq_left']
    constructor
    · rintro ⟨⟨hmode,hne⟩,hon,hv,hw⟩
      exact ⟨hmode,hne,hon,hv,hw⟩
    · rintro ⟨hmode,h⟩
      exact ⟨⟨hmode,h.some_ip⟩,h.enabled,h.valid,h.works⟩

end Executor

/-- A launch that does not isolate the network comes after the rules for its addresses. -/
def NetworkConfined (l : Launch) : Prop := l.rules ∨ Isolated l.args

/-- In allowlist mode a failed set-up of the rules is only logged, and the task shares the network of the host. -/
theorem networkConfined_iff (toLower : GoString → GoString) (cfg : Config) (req : ExecRequest)
    (w : Answers) (l : Launch) (h : (newExecutor cfg).Launches toLower req w l) :
    NetworkConfined l ↔ (newExecutor cfg).networkMode req≠allowlist ∨
      (∀ t, sanitizeTaskID req.taskID ≠ .ok t) ∨
      ∃ o, req.sandboxCfg=some o ∧ Executor.RulesInstalled (newExecutor cfg) o w := by
  obtain ⟨hrules,⟨err,hs,hargs⟩ | ⟨t,rest,hs,hargs⟩⟩ := Executor.launches_args h
  · have hiso : Isolated l.args := by
      rw [hargs]
      exact ⟨rfl,rfl⟩
    have hrej : ∀ t, sanitizeTaskID req.taskID ≠ .ok t := by
      intro t ht
      cases hs.symm.trans ht
    exact ⟨fun _ => .inr (.inl hrej),fun _ => .inr hiso⟩
  · have hiso : Isolated l.args ↔ (newExecutor cfg).networkMode req≠allowlist := by
      rw [hargs]
      exact isolated_options _ t rest
    have hset:=Executor.setupNetwork_eq_true (newExecutor cfg) req w hs
    rw [NetworkConfined,hiso,hrules,hset]
    constructor
    · rintro (⟨-,ho⟩ | hmode)
      · exact .inr (.inr ho)
      · exact .inl hmode
    · rintro (hmode | hrej | ho)
      · exact .inr hmode
      · exact absurd hs (hrej t)
      · by_cases hmode : (newExecutor cfg).networkMode req=allowlist
        · exact .inl ⟨hmode,ho⟩
        · exact .inr hmode

def curlConfig : Config :=
  ⟨[],[],[],0,0,0,0,0,0,allowlist,⟨[utf8 "curl"],[utf8 "rm"],[],[],0,false⟩⟩
def curlRequest (ips : List GoString) : ExecRequest :=
  ⟨utf8 "job-7",utf8 "curl",[],[],[],[],0,some ⟨0,0,0,[],ips,0⟩⟩
def answers (network : Nat → Bool) : Answers :=
  ⟨true,none,true,fun _ => true,network,true⟩

theorem networkConfined_curl :
    ∃ l, (newExecutor curlConfig).Launches id (curlRequest [utf8 "10.0.0.1"]) (answers fun _ => true) l ∧
      NetworkConfined l := by
  refine ⟨_,.inl rfl,?_⟩
  refine (networkConfined_iff id curlConfig (curlRequest [utf8 "10.0.0.1"]) (answers fun _ => true) _
    (.inl rfl)).mpr (.inr (.inr ⟨_,rfl,?_⟩))
  exact ⟨by decide,by decide,by decide,fun _ _ => rfl⟩

/-- The network of the host is shared although the rule for the address is not installed, and
although `run` has fallen back to `disabled`. -/
theorem network_shared_without_rules :
    (∃ l, (newExecutor curlConfig).executeCommand (curlRequest [utf8 "10.0.0.1"])
      (answers fun i => i≠2)=some l ∧ l.rules=false ∧ sharesNetwork l.args=true) ∧
    (∃ l, (newExecutor curlConfig).executeCommand (curlRequest []) (answers fun _ => true)=some l ∧
      l.rules=false ∧ sharesNetwork l.args=true) ∧
    ¬ ∀ toLower cfg req w l, (newExecutor cfg).Launches toLower req w l → NetworkConfined l := by
  refine ⟨⟨_,rfl,by decide,by decide⟩,⟨_,rfl,by decide,by decide⟩,?_⟩
  intro h
  rcases h id curlConfig (curlRequest []) (answers fun _ => true) _ (.inl rfl) with hr | hi
  · exact absurd hr (by decide)
  · exact absurd hi.1 (by decide)

def executed (args : List GoString) : Option GoString := (args.dropWhile (· != utf8 "--"))[1]?

theorem executed_options (taskID command : GoString) (rest : List GoString) :
    executed (c.options taskID++utf8 "--"::command::rest)=some command := by
  have hall:=all_eq_true.mp (options_no_dashes c taskID)
  rw [executed,dropWhile_append_of_pos hall,dropWhile_cons]
  simp

theorem mem_toSet (items : List GoString) (x : GoString) :
    x∈toSet items ↔ x≠[] ∧ ∃ item∈items, trimSpaces item=x := by
  simp only [toSet,mem_filter,List.mem_map,decide_eq_true_eq]
  exact and_comm

structure CommandConfined (e : Executor) (req : ExecRequest) (l : Launch) : Prop where
  args : ∃ t, sanitizeTaskID req.taskID=.ok t ∧
    l.args=(e.buildNsjailConfig req).options t++utf8 "--"::req.command::req.args
  allowed : e.cfg.policy.allowedCommands≠[] → ∀ cmd, executed l.args=some cmd →
    ∃ entry∈e.cfg.policy.allowedCommands, trimSpaces entry=cmd
  not_blocked : ∀ cmd, executed l.args=some cmd →
    ∀ entry∈e.cfg.policy.blockedCommands, entry≠cmd ∧ trimSpaces entry≠cmd

/-- The policy is asked about the trimmed command, and the command itself is run. -/
theorem commandConfined_iff (cfg : Config) (req : ExecRequest) (w : Answers) (l : Launch)
    (h : (newExecutor cfg).executeCommand req w=some l) : CommandConfined (newExecutor cfg) req l ↔
      (∃ t, sanitizeTaskID req.taskID=.ok t) ∧
      (cfg.policy.allowedCommands≠[] → trimSpaces req.command=req.command) := by
  obtain ⟨hpolicy,hrun⟩ := Executor.executeCommand_eq_some h
  obtain ⟨hargs,-⟩ := Executor.run_eq_some hrun
  obtain ⟨hne,-,hblocked,hallowed,-,-⟩ :=
    (Policy.validateCommand_eq_none cfg.policy req.command req.args).mp hpolicy
  constructor
  · intro hc
    obtain ⟨t,hs,hl⟩ := hc.args
    refine ⟨⟨t,hs⟩,?_⟩
    intro hlist
    have hex : executed l.args=some req.command := by
      rw [hl]
      exact executed_options _ t _ _
    obtain ⟨entry,-,hentry⟩ := hc.allowed hlist req.command hex
    rw [← hentry]
    exact trimSpaces_trimSpaces entry
  · rintro ⟨⟨t,hs⟩,htrim⟩
    rw [Executor.commandArgs_of_ok _ hs,getD_some] at hargs
    have hex : executed l.args=some req.command := by
      rw [hargs]
      exact executed_options _ t _ _
    refine ⟨⟨t,hs,hargs⟩,?_,?_⟩
    · intro hlist cmd hcmd
      rw [hex,some.injEq] at hcmd
      obtain ⟨-,entry,hmem,hentry⟩ := (mem_toSet _ _).mp (hallowed hlist)
      exact ⟨entry,hmem,by rw [hentry,htrim hlist,hcmd]⟩
    · intro cmd hcmd entry hmem
      rw [hex,some.injEq] at hcmd
      have hdiff : trimSpaces entry≠trimSpaces req.command :=
        fun he => hblocked ((mem_toSet _ _).mpr ⟨hne,entry,hmem,he⟩)
      refine ⟨?_,?_⟩
      · intro he
        exact hdiff (by rw [he,hcmd])
      · intro he
        exact hdiff (by rw [hcmd,← he,trimSpaces_trimSpaces])

theorem commandConfined_curl :
    ∃ l, (newExecutor curlConfig).executeCommand (curlRequest []) (answers fun _ => true)=some l ∧
      CommandConfined (newExecutor curlConfig) (curlRequest []) l := by
  refine ⟨_,rfl,?_⟩
  exact (commandConfined_iff curlConfig (curlRequest []) (answers fun _ => true) _ rfl).mpr
    ⟨⟨utf8 "job-7",by decide⟩,fun _ => by decide⟩

theorem command_not_confined :
    (∃ l, (newExecutor curlConfig).executeCommand {curlRequest [] with taskID := utf8 "../job" }
      (answers fun _ => true)=some l ∧ l.args=[]) ∧
    (∃ l, (newExecutor curlConfig).executeCommand {curlRequest [] with command := utf8 " curl" }
      (answers fun _ => true)=some l ∧ executed l.args=some (utf8 " curl")) ∧
    ¬ ∀ cfg req w l, (newExecutor cfg).executeCommand req w=some l →
      CommandConfined (newExecutor cfg) req l := by
  refine ⟨⟨_,rfl,by decide⟩,⟨_,rfl,by decide⟩,?_⟩
  intro h
  obtain ⟨⟨t,hs,-⟩,-,-⟩ := h curlConfig {curlRequest [] with taskID := utf8 "../job" }
    (answers fun _ => true) _ rfl
  exact absurd hs (by
    intro ht
    have hbad : sanitizeTaskID (utf8 "../job")=.error (.traversal (utf8 "../job")) := by decide
    rw [hbad] at ht
    cases ht)

end OpsAgent.Sandbox
