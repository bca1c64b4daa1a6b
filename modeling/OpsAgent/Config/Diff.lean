import OpsAgent.Config.Validate

/-!
# `Diff` (`config/diff.go`)
-/

namespace OpsAgent
open List

structure ChangeSet where
  (collectorChanged reporterChanged authChanged prometheusChanged pluginGatewayChanged : Bool)
  (checkerChanged alertingChanged : Bool)

def ChangeSet.empty : ChangeSet := ⟨false,false,false,false,false,false,false⟩

/-- What `OldVal` and `NewVal` hold. A masked secret is cut out of the bytes of
the secret and need not be UTF-8. -/
inductive FieldVal where
  | bool (b : Bool)
  | int (n : Int)
  | str (s : String)
  | masked (bytes : List UInt8)
  | strs (xs : Option (List String))
  | mtls (c : MTLSConfig)
  | sandbox (c : SandboxConfig)
  | plugin (c : PluginConfig)
  | host (c : GatewayHostConfig)
  deriving DecidableEq

structure NonReloadableChange where
  field : String
  (oldVal newVal : FieldVal)
  deriving DecidableEq

def maskSecret (s : String) : List UInt8 :=
  let b:=s.toUTF8.toList
  let stars := "***".toUTF8.toList
  if b.length≤4 then stars else b.take 2++stars++b.drop (b.length-2)
def changeIf (differs : Bool) (field : String) (old new : FieldVal) : List NonReloadableChange :=
  if differs then [⟨field,old,new⟩] else []

def FieldVal.secret (s : String) : FieldVal := .masked (maskSecret s)
def changeOf {α β : Type} [DecidableEq β] (old new : α) (field : String) (get : α → β)
    (val : β → FieldVal) : List NonReloadableChange :=
  changeIf (get old != get new) field (val (get old)) (val (get new))

namespace Config

def diffReporter (old new : Config) : Bool := old.reporter != new.reporter
def diffAuth (old new : Config) : Bool := old.auth != new.auth
def diffPrometheus (old new : Config) : Bool := old.prometheus != new.prometheus
def diffPluginGateway (old new : Config) : Bool := !old.pluginGateway.deepEqual new.pluginGateway
def diffChecker (old new : Config) : Bool := old.checker != new.checker
def diffAlerting (old new : Config) : Bool := !old.alerting.deepEqual new.alerting

def diffAgent (old new : Config) : List NonReloadableChange :=
  changeOf old new "agent.id" (·.agent.id) .str ++
  changeOf old new "agent.name" (·.agent.name) .str ++
  changeOf old new "agent.interval_seconds" (·.agent.intervalSeconds) .int ++
  changeOf old new "agent.shutdown_timeout_seconds" (·.agent.shutdownTimeoutSeconds) .int

def diffServer (old new : Config) : List NonReloadableChange :=
  changeOf old new "server.listen_addr" (·.server.listenAddr) .str

def diffGRPC (old new : Config) : List NonReloadableChange :=
  changeOf old new "grpc.server_addr" (·.grpc.serverAddr) .str ++
  changeOf old new "grpc.enroll_token" (·.grpc.enrollToken) .secret ++
  changeOf old new "grpc.mtls" (·.grpc.mtls) .mtls ++
  changeOf old new "grpc.heartbeat_interval_seconds" (·.grpc.heartbeatIntervalSeconds) .int ++
  changeOf old new "grpc.reconnect_initial_backoff_ms" (·.grpc.reconnectInitialBackoffMS) .int ++
  changeOf old new "grpc.reconnect_max_backoff_ms" (·.grpc.reconnectMaxBackoffMS) .int ++
  changeOf old new "grpc.cache_persist_path" (·.grpc.cachePersistPath) .str

def diffExecutor (old new : Config) : List NonReloadableChange :=
  changeOf old new "executor.timeout_seconds" (·.executor.timeoutSeconds) .int ++
  changeOf old new "executor.allowed_commands" (·.executor.allowedCommands) .strs ++
  changeOf old new "executor.max_output_bytes" (·.executor.maxOutputBytes) .int

def diffHost (oh nh : GatewayHostConfig) (i : Nat) : List NonReloadableChange :=
  changeIf (oh.id != nh.id||oh.addr != nh.addr||oh.mode != nh.mode)
    s!"gateway.hosts[{i}]" (.host oh) (.host nh) ++
  changeOf oh nh s!"gateway.hosts[{i}].ssh.user" (·.ssh.user) .str ++
  changeOf oh nh s!"gateway.hosts[{i}].ssh.password" (·.ssh.password) .secret ++
  changeOf oh nh s!"gateway.hosts[{i}].ssh.key_file" (·.ssh.keyFile) .str ++
  changeOf oh nh s!"gateway.hosts[{i}].ssh.port" (·.ssh.port) .int

def diffHosts (ohs nhs : List GatewayHostConfig) : List NonReloadableChange :=
  if ohs.length≠nhs.length then [⟨"gateway.hosts",.int ohs.length,.int nhs.length⟩]
  else (ohs.zip nhs).zipIdx.flatMap fun h => diffHost h.1.1 h.1.2 h.2

def diffGateway (old new : Config) : List NonReloadableChange :=
  changeOf old new "gateway.enabled" (·.gateway.enabled) .bool ++
  changeOf old new "gateway.listen_addr" (·.gateway.listenAddr) .str ++
  changeOf old new "gateway.max_tunnels" (·.gateway.maxTunnels) .int ++
  changeOf old new "gateway.tunnel_timeout_seconds" (·.gateway.tunnelTimeoutSeconds) .int ++
  changeOf old new "gateway.idle_timeout_seconds" (·.gateway.idleTimeoutSeconds) .int ++
  diffHosts old.gateway.hosts new.gateway.hosts

def changeSet (old new : Config) : ChangeSet where
  collectorChanged := !old.collector.deepEqual new.collector
  reporterChanged := diffReporter old new
  authChanged := diffAuth old new
  prometheusChanged := diffPrometheus old new
  pluginGatewayChanged := diffPluginGateway old new
  checkerChanged := diffChecker old new
  alertingChanged := diffAlerting old new

def nonReloadable (old new : Config) : List NonReloadableChange :=
  diffAgent old new++diffServer old new++diffGRPC old new++diffExecutor old new ++
  changeOf old new "sandbox.*" (·.sandbox) .sandbox ++
  changeOf old new "plugin.*" (·.plugin) .plugin ++
  diffGateway old new

def diff (old new : Config) : Except String (ChangeSet × List NonReloadableChange) :=
  match new.validate with
  | some err => .error ("invalid new config: "++err)
  | none => .ok (changeSet old new,nonReloadable old new)

theorem changeIf_eq_nil (differs : Bool) (field : String) (old new : FieldVal) :
    changeIf differs field old new=[] ↔ differs=false := by cases differs <;> simp [changeIf]
theorem changeOf_eq_nil {α β : Type} [DecidableEq β] {old new : α} {field : String} {get : α → β}
    {val : β → FieldVal} : changeOf old new field get val=[] ↔ get old=get new :=
  (changeIf_eq_nil _ _ _ _).trans bne_eq_false_iff_eq
theorem diffHost_eq_nil (oh nh : GatewayHostConfig) (i : Nat) : diffHost oh nh i=[] ↔ oh=nh := by
  simp only [diffHost,append_eq_nil_iff,changeIf_eq_nil,changeOf_eq_nil,Bool.or_eq_false_iff,
    bne_eq_false_iff_eq,GatewayHostConfig.ext_iff,GatewaySSHConfig.ext_iff,and_assoc]

theorem diffHost_zip_eq_nil (ohs nhs : List GatewayHostConfig) (n : Nat) (hl : ohs.length=nhs.length) :
    ((ohs.zip nhs).zipIdx n).flatMap (fun h => diffHost h.1.1 h.1.2 h.2)=[] ↔ ohs=nhs := by
  induction ohs generalizing nhs n with
  | nil =>
    have hn : nhs=[] := length_eq_zero_iff.mp hl.symm
    simp [hn]
  | cons oh ohs ih =>
    cases nhs with
    | nil => cases hl
    | cons nh nhs =>
      have htail:=ih nhs (n+1) (Nat.succ.inj hl)
      simp [diffHost_eq_nil,htail,cons.injEq]

theorem diffHosts_eq_nil (ohs nhs : List GatewayHostConfig) : diffHosts ohs nhs=[] ↔ ohs=nhs := by
  unfold diffHosts
  split
  next hl =>
    constructor
    · intro h
      cases h
    · intro h
      exact absurd (congrArg length h) hl
  next hl => exact diffHost_zip_eq_nil ohs nhs 0 (not_not.mp hl)

variable (old new : Config)

theorem diffAgent_eq_nil :
    diffAgent old new=[] ↔ old.agent.id=new.agent.id ∧ old.agent.name=new.agent.name ∧
      old.agent.intervalSeconds=new.agent.intervalSeconds ∧
      old.agent.shutdownTimeoutSeconds=new.agent.shutdownTimeoutSeconds := by
  simp [diffAgent,changeOf_eq_nil]

theorem diffServer_eq_nil : diffServer old new=[] ↔ old.server=new.server := by
  simp only [diffServer,changeOf_eq_nil,ServerConfig.ext_iff]
theorem diffGRPC_eq_nil : diffGRPC old new=[] ↔ old.grpc=new.grpc := by
  simp only [diffGRPC,append_eq_nil_iff,changeOf_eq_nil,GRPCConfig.ext_iff,and_assoc]
theorem diffExecutor_eq_nil : diffExecutor old new=[] ↔ old.executor=new.executor := by
  simp only [diffExecutor,append_eq_nil_iff,changeOf_eq_nil,ExecutorConfig.ext_iff,and_assoc]
theorem diffGateway_eq_nil : diffGateway old new=[] ↔ old.gateway=new.gateway := by
  simp only [diffGateway,append_eq_nil_iff,changeOf_eq_nil,diffHosts_eq_nil,GatewayConfig.ext_iff,and_assoc]

structure ComparedEqual (old new : Config) : Prop where
  collector : old.collector.deepEqual new.collector
  reporter : old.reporter=new.reporter
  auth : old.auth=new.auth
  prometheus : old.prometheus=new.prometheus
  pluginGateway : old.pluginGateway.deepEqual new.pluginGateway
  checker : old.checker=new.checker
  alerting : old.alerting.deepEqual new.alerting
  agent : old.agent.id=new.agent.id ∧ old.agent.name=new.agent.name ∧
    old.agent.intervalSeconds=new.agent.intervalSeconds ∧
    old.agent.shutdownTimeoutSeconds=new.agent.shutdownTimeoutSeconds
  server : old.server=new.server
  grpc : old.grpc=new.grpc
  executor : old.executor=new.executor
  sandbox : old.sandbox=new.sandbox
  plugin : old.plugin=new.plugin
  gateway : old.gateway=new.gateway

structure UncomparedEqual (old new : Config) : Prop where
  agentMode : old.agent.mode=new.agent.mode
  auditLog : old.agent.auditLog=new.agent.auditLog
  tracing : old.tracing=new.tracing
  discovery : old.discovery=new.discovery
  updater : old.updater=new.updater
  wasm : old.wasm=new.wasm
  federation : old.federation.deepEqual new.federation

structure SectionsEqual (old new : Config) : Prop where
  agent : old.agent=new.agent
  server : old.server=new.server
  executor : old.executor=new.executor
  reporter : old.reporter=new.reporter
  auth : old.auth=new.auth
  prometheus : old.prometheus=new.prometheus
  plugin : old.plugin=new.plugin
  grpc : old.grpc=new.grpc
  sandbox : old.sandbox=new.sandbox
  collector : old.collector.deepEqual new.collector
  pluginGateway : old.pluginGateway.deepEqual new.pluginGateway
  checker : old.checker=new.checker
  gateway : old.gateway=new.gateway
  tracing : old.tracing=new.tracing
  alerting : old.alerting.deepEqual new.alerting
  discovery : old.discovery=new.discovery
  updater : old.updater=new.updater
  wasm : old.wasm=new.wasm
  federation : old.federation.deepEqual new.federation

theorem changeSet_eq_empty : changeSet old new=ChangeSet.empty ↔
      old.collector.deepEqual new.collector ∧ old.reporter=new.reporter ∧
      old.auth=new.auth ∧ old.prometheus=new.prometheus ∧
      old.pluginGateway.deepEqual new.pluginGateway ∧ old.checker=new.checker ∧
      old.alerting.deepEqual new.alerting := by
  simp [changeSet,ChangeSet.empty,ChangeSet.mk.injEq,diffReporter,diffAuth,diffPrometheus,diffPluginGateway,diffChecker,diffAlerting]

theorem nonReloadable_eq_nil : nonReloadable old new=[] ↔ diffAgent old new=[] ∧ old.server=new.server ∧
      old.grpc=new.grpc ∧ old.executor=new.executor ∧ old.sandbox=new.sandbox ∧
      old.plugin=new.plugin ∧ old.gateway=new.gateway := by
  simp [nonReloadable,changeOf_eq_nil,diffServer_eq_nil,diffGRPC_eq_nil,diffExecutor_eq_nil,diffGateway_eq_nil]

def Silent (old new : Config) : Prop := diff old new=.ok (ChangeSet.empty,[])

theorem silent_iff_comparedEqual (hnew : new.validate=none) :
    Silent old new ↔ ComparedEqual old new := by
  simp only [Silent,diff,hnew,Except.ok.injEq,Prod.mk.injEq,changeSet_eq_empty,
    nonReloadable_eq_nil,diffAgent_eq_nil]
  constructor
  · rintro ⟨⟨h1,h2,h3,h4,h5,h6,h7⟩,h8,h9,h10,h11,h12,h13,h14⟩
    exact ⟨h1,h2,h3,h4,h5,h6,h7,h8,h9,h10,h11,h12,h13,h14⟩
  · intro h
    exact ⟨⟨h.collector,h.reporter,h.auth,h.prometheus,h.pluginGateway,h.checker,h.alerting⟩,
      h.agent,h.server,h.grpc,h.executor,h.sandbox,h.plugin,h.gateway⟩

theorem agent_eq_iff (a b : AgentConfig) :
    a=b ↔ (a.id=b.id ∧ a.name=b.name ∧ a.intervalSeconds=b.intervalSeconds ∧
      a.shutdownTimeoutSeconds=b.shutdownTimeoutSeconds) ∧ a.mode=b.mode ∧ a.auditLog=b.auditLog := by
  rw [AgentConfig.ext_iff]
  tauto

theorem sectionsEqual_iff :
    SectionsEqual old new ↔ ComparedEqual old new ∧ UncomparedEqual old new := by
  constructor
  · intro h
    have ha:=(agent_eq_iff old.agent new.agent).mp h.agent
    exact ⟨⟨h.collector,h.reporter,h.auth,h.prometheus,h.pluginGateway,h.checker,h.alerting,
        ha.1,h.server,h.grpc,h.executor,h.sandbox,h.plugin,h.gateway⟩,
      ⟨ha.2.1,ha.2.2,h.tracing,h.discovery,h.updater,h.wasm,h.federation⟩⟩
  · rintro ⟨h,u⟩
    have ha:=(agent_eq_iff old.agent new.agent).mpr ⟨h.agent,u.agentMode,u.auditLog⟩
    exact ⟨ha,h.server,h.executor,h.reporter,h.auth,h.prometheus,h.plugin,h.grpc,h.sandbox,
      h.collector,h.pluginGateway,h.checker,h.gateway,u.tracing,h.alerting,u.discovery,
      u.updater,u.wasm,u.federation⟩

/-- A report of no change is right exactly if the sections that `Diff` does not look at agree, or one that
it does look at differs. -/
theorem silent_diff_complete_iff (old new : Config) (hnew : new.validate=none) :
    (Silent old new → SectionsEqual old new) ↔ (UncomparedEqual old new ∨ ¬ ComparedEqual old new) := by
  rw [silent_iff_comparedEqual old new hnew,sectionsEqual_iff]
  constructor
  · intro h
    by_cases hc : ComparedEqual old new
    · exact .inl (h hc).2
    · exact .inr hc
  · rintro (hu | hn) hc
    · exact ⟨hc,hu⟩
    · exact absurd hc hn

def plain : Config where
  agent := ⟨"a1","agent one","standalone",10,30,⟨false,"",0,0⟩⟩
  server := ⟨"127.0.0.1:18080"⟩
  executor := ⟨10,some ["uptime"],65536⟩
  reporter := ⟨"stdout","",5,3,500⟩
  auth := ⟨false,""⟩
  prometheus := ⟨false,"",false⟩
  plugin := ⟨false,"","",false,0,0,0,0,0,""⟩
  grpc := ⟨"platform:443","",⟨"","",""⟩,15,1000,30000,""⟩
  sandbox := ⟨false,"","",0,0,"","",⟨none,none,none,none,0,false⟩,false⟩
  collector := ⟨none,none,none,none⟩
  pluginGateway := ⟨false,"",0,0,0,0,0,none⟩
  checker := ⟨false,0,0,none⟩
  gateway := ⟨false,"",0,0,0,[]⟩
  tracing := ⟨false,⟨"",""⟩,⟨0,0⟩,⟨"",""⟩⟩
  alerting := ⟨false,none⟩
  discovery := ⟨false,0,[]⟩
  updater := ⟨false,"","",""⟩
  wasm := ⟨false,"",0,""⟩
  federation := ⟨false,⟨"","",0,0,0,⟨⟨"","",""⟩,""⟩,[],⟨none,none,none,none⟩,
    ⟨"",[]⟩,⟨0,0,⟨0,0⟩⟩⟩,⟨"",0,0,⟨false,"","",0⟩⟩⟩

/-- A change that `Diff` reports, of a section that it looks at and one that it does not. -/
def changed : Config :=
  {plain with checker := ⟨true,5,30,none⟩, wasm := ⟨true,"/etc/opsagent/wasm-plugins",10,""⟩ }

theorem silent_diff_complete_changed :
    plain.validate=none ∧ changed.validate=none ∧ ¬ Silent plain changed ∧
      (Silent plain changed → SectionsEqual plain changed) := by
  have hcompared : ¬ ComparedEqual plain changed := fun h => absurd h.checker (by decide)
  refine ⟨by decide,by decide,?_,?_⟩
  · rwa [silent_iff_comparedEqual plain changed (by decide)]
  · exact (silent_diff_complete_iff plain changed (by decide)).mpr (.inr hcompared)

theorem silent_diff_misses_section :
    ¬ ∀ old new : Config, old.validate=none → new.validate=none → Silent old new →
      SectionsEqual old new := by
  intro h
  have hs:=h plain {plain with wasm := ⟨true,"/etc/opsagent/wasm-plugins",10,""⟩}
    (by decide) (by decide) rfl
  exact absurd hs.wasm (by decide)

end Config
end OpsAgent
