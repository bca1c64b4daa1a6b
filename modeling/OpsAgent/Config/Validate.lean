import OpsAgent.Config.Types

/-!
# `Config.Validate`

Here it is the list of these tests in the order of the source; the first one that fails decides the
error.
-/

namespace OpsAgent

/-- `unicode.IsSpace` -/
def isSpace (c : Char) : Bool :=
  [0x09,0x0a,0x0b,0x0c,0x0d,0x20,0x85,0xa0,0x1680,0x2028,0x2029,0x202f,0x205f,
    0x3000].contains c.toNat||(0x2000≤c.toNat&&c.toNat≤0x200a)

/-- `strings.TrimSpace` -/
def trimSpace (s : String) : String :=
  String.ofList (((s.toList.dropWhile isSpace).reverse.dropWhile isSpace).reverse)
def isBlank (s : String) : Bool := trimSpace s == ""

/-- One `if failed then return message`. -/
structure Check where
  failed : Bool
  message : String

namespace Config

def checkAgent (c : Config) : List Check :=
  [⟨c.agent.id == "","agent.id is required"⟩,
   ⟨c.agent.name == "","agent.name is required"⟩,
   ⟨c.agent.intervalSeconds≤0,"agent.interval_seconds must be > 0"⟩,
   ⟨c.server.listenAddr == "","server.listen_addr is required"⟩]

def checkExecutor (c : Config) : List Check :=
  [⟨c.executor.timeoutSeconds≤0,"executor.timeout_seconds must be > 0"⟩,
   ⟨(c.executor.allowedCommands.getD []).isEmpty,"executor.allowed_commands must not be empty"⟩] ++
  (c.executor.allowedCommands.getD []).map (fun cmd =>
    ⟨isBlank cmd,"executor.allowed_commands contains empty command"⟩) ++
  [⟨c.executor.maxOutputBytes≤0,"executor.max_output_bytes must be > 0"⟩]

def checkReporter (c : Config) : List Check :=
  [⟨!(["stdout","http"].contains c.reporter.mode),"reporter.mode must be one of: stdout, http"⟩,
   ⟨c.reporter.mode == "http" && isBlank c.reporter.endpoint,
    "reporter.endpoint is required when reporter.mode=http"⟩,
   ⟨c.reporter.timeoutSeconds≤0,"reporter.timeout_seconds must be > 0"⟩,
   ⟨c.reporter.retryCount<0,"reporter.retry_count must be >= 0"⟩,
   ⟨c.reporter.retryIntervalMS<0,"reporter.retry_interval_ms must be >= 0"⟩]

def checkAuth (c : Config) : List Check :=
  if c.auth.enabled then
    [⟨isBlank c.auth.bearerToken,"auth.bearer_token is required when auth.enabled=true"⟩,
     ⟨(trimSpace c.auth.bearerToken).utf8ByteSize<32,
      "auth.bearer_token must be at least 32 characters when auth.enabled=true"⟩]
  else []

def checkPrometheus (c : Config) : List Check :=
  if c.prometheus.enabled then
    [⟨isBlank c.prometheus.path,"prometheus.path is required when prometheus.enabled=true"⟩,
     ⟨c.prometheus.path.toList.head? != some '/',"prometheus.path must start with /"⟩]
  else []

def checkPlugin (c : Config) : List Check :=
  if c.plugin.enabled then
    [⟨isBlank c.plugin.socketPath,"plugin.socket_path is required when plugin.enabled=true"⟩,
     ⟨c.plugin.autoStart&&isBlank c.plugin.runtimePath,
      "plugin.runtime_path is required when plugin.auto_start=true"⟩,
     ⟨c.plugin.startupTimeoutSeconds≤0,"plugin.startup_timeout_seconds must be > 0"⟩,
     ⟨c.plugin.requestTimeoutSeconds≤0,"plugin.request_timeout_seconds must be > 0"⟩,
     ⟨c.plugin.maxConcurrentTasks≤0,"plugin.max_concurrent_tasks must be > 0"⟩,
     ⟨c.plugin.maxResultBytes≤0,"plugin.max_result_bytes must be > 0"⟩,
     ⟨c.plugin.chunkSizeBytes≤0,"plugin.chunk_size_bytes must be > 0"⟩,
     ⟨isBlank c.plugin.sandboxProfile,"plugin.sandbox_profile is required"⟩]
  else []

def checkGRPC (c : Config) : List Check :=
  [⟨isBlank c.grpc.serverAddr,"grpc.server_addr is required"⟩,
   ⟨c.grpc.heartbeatIntervalSeconds≤0,"grpc.heartbeat_interval_seconds must be > 0"⟩,
   ⟨c.grpc.reconnectInitialBackoffMS≤0,"grpc.reconnect_initial_backoff_ms must be > 0"⟩,
   ⟨c.grpc.reconnectMaxBackoffMS≤0,"grpc.reconnect_max_backoff_ms must be > 0"⟩]

def checkSandbox (c : Config) : List Check :=
  if c.sandbox.enabled then
    [⟨isBlank c.sandbox.nsjailPath,"sandbox.nsjail_path is required when sandbox.enabled=true"⟩,
     ⟨isBlank c.sandbox.baseWorkdir,"sandbox.base_workdir is required when sandbox.enabled=true"⟩,
     ⟨c.sandbox.defaultTimeoutSeconds≤0,"sandbox.default_timeout_seconds must be > 0"⟩,
     ⟨c.sandbox.maxConcurrentTasks≤0,"sandbox.max_concurrent_tasks must be > 0"⟩,
     ⟨isBlank c.sandbox.cgroupBasePath,
      "sandbox.cgroup_base_path is required when sandbox.enabled=true"⟩,
     ⟨isBlank c.sandbox.auditLogPath,
      "sandbox.audit_log_path is required when sandbox.enabled=true"⟩,
     ⟨(c.sandbox.policy.allowedCommands.getD []).isEmpty,
      "sandbox.policy.allowed_commands must not be empty when sandbox.enabled=true"⟩,
     ⟨c.sandbox.policy.scriptMaxBytes≤0,"sandbox.policy.script_max_bytes must be > 0"⟩]
  else []

def checkPluginGateway (c : Config) : List Check :=
  if c.pluginGateway.enabled then
    [⟨isBlank c.pluginGateway.pluginsDir,
      "plugin_gateway.plugins_dir is required when plugin_gateway.enabled=true"⟩,
     ⟨c.pluginGateway.startupTimeoutSeconds≤0,
      "plugin_gateway.startup_timeout_seconds must be > 0"⟩,
     ⟨c.pluginGateway.healthCheckIntervalSecs≤0,
      "plugin_gateway.health_check_interval_seconds must be > 0"⟩,
     ⟨c.pluginGateway.maxRestarts<0,"plugin_gateway.max_restarts must be >= 0"⟩]
  else []

def checkChecker (c : Config) : List Check :=
  if c.checker.enabled then
    [⟨c.checker.maxConcurrent≤0,
      "checker.max_concurrent must be > 0 when checker.enabled=true"⟩,
     ⟨c.checker.defaultTimeoutSeconds≤0,
      "checker.default_timeout_seconds must be > 0 when checker.enabled=true"⟩]
  else []

def checkGatewayHost (h : GatewayHostConfig) (i : Nat) : List Check :=
  [⟨h.id == "",s!"gateway.hosts[{i}].id is required"⟩,
   ⟨h.addr == "",s!"gateway.hosts[{i}].addr is required"⟩,
   ⟨!(["tunnel","proxy","auto"].contains h.mode),
    s!"gateway.hosts[{i}].mode must be one of: tunnel, proxy, auto"⟩] ++
  if h.mode == "proxy" || h.mode == "auto" then
    [⟨h.ssh.user == "",
      s!"gateway.hosts[{i}].ssh.user is required when mode="++h.mode⟩,
     ⟨h.ssh.port≤0,s!"gateway.hosts[{i}].ssh.port must be > 0 when mode="++h.mode⟩]
  else []

def checkGateway (c : Config) : List Check :=
  if c.gateway.enabled then
    [⟨isBlank c.gateway.listenAddr,"gateway.listen_addr is required when gateway.enabled=true"⟩,
     ⟨c.gateway.maxTunnels≤0,"gateway.max_tunnels must be > 0 when gateway.enabled=true"⟩,
     ⟨c.gateway.tunnelTimeoutSeconds≤0,
      "gateway.tunnel_timeout_seconds must be > 0 when gateway.enabled=true"⟩,
     ⟨c.gateway.idleTimeoutSeconds≤0,
      "gateway.idle_timeout_seconds must be > 0 when gateway.enabled=true"⟩] ++
    c.gateway.hosts.zipIdx.flatMap fun h => checkGatewayHost h.1 h.2
  else []

def checkTracing (c : Config) : List Check :=
  if c.tracing.enabled then
    [⟨c.tracing.exporter.endpoint == "",
      "tracing.exporter.endpoint is required when tracing is enabled"⟩]
  else []

def validOps : List String := [">","<",">=","<=","==","!="]

def checkAlertRule (rule : AlertRule) (i : Nat) : List Check :=
  [⟨rule.name == "",s!"alerting.rules[{i}].name is required"⟩,
   ⟨rule.condition.metric == "",s!"alerting.rules[{i}].condition.metric is required"⟩,
   ⟨!validOps.contains rule.condition.operator,
    s!"alerting.rules[{i}].condition.operator must be one of: >, <, >=, <=, ==, !="⟩]

def checkAlerting (c : Config) : List Check :=
  if c.alerting.enabled then
    (c.alerting.rules.getD []).zipIdx.flatMap fun r => checkAlertRule r.1 r.2
  else []

def checkStages : Option CanaryStageConfig → List CanaryStageConfig → Nat → List Check
  | _, [], _ => []
  | prev, stage::stages, i =>
    ⟨stage.percentage≤0||stage.percentage > 100,
      s!"federation.hub.canary.stages[{i}].percentage must be 1-100"⟩ ::
    ⟨prev.any fun p => stage.percentage≤p.percentage,
      "federation.hub.canary.stages must be sorted by percentage ascending"⟩ ::
    checkStages (some stage) stages (i+1)

def agentModeStandalone : String := "standalone"
def agentModeHub : String := "hub"
def agentModeLeaf : String := "leaf"

def checkHub (hub : FederationHubConfig) : List Check :=
  [⟨isBlank hub.listenAddr,"federation.hub.listen_addr is required when agent.mode=hub"⟩,
   ⟨isBlank hub.region,"federation.hub.region is required when agent.mode=hub"⟩,
   ⟨hub.maxLeaves≤0,"federation.hub.max_leaves must be > 0 when agent.mode=hub"⟩,
   ⟨hub.leafHeartbeatTimeoutSeconds≤0,
    "federation.hub.leaf_heartbeat_timeout_seconds must be > 0 when agent.mode=hub"⟩,
   ⟨hub.metricsAggregationIntervalSec≤0,
    "federation.hub.metrics_aggregation_interval_seconds must be > 0 when agent.mode=hub"⟩] ++
  checkStages none hub.canary.stages 0 ++
  [⟨!(["","percentage"].contains hub.canary.strategy),
    "federation.hub.canary.strategy must be one of: percentage"⟩]

def checkLeaf (leaf : FederationLeafConfig) : List Check :=
  [⟨isBlank leaf.hubAddr,"federation.leaf.hub_addr is required when agent.mode=leaf"⟩,
   ⟨!(["","standalone"].contains leaf.fallback.mode),
    "federation.leaf.fallback.mode must be one of: standalone"⟩]

def checkFederation (c : Config) : List Check :=
  if c.federation.enabled then
    if c.agent.mode == agentModeHub then checkHub c.federation.hub
    else if c.agent.mode == agentModeLeaf then checkLeaf c.federation.leaf
    else []
  else []

def checks (c : Config) : List Check :=
  c.checkAgent++c.checkExecutor++c.checkReporter++c.checkAuth++c.checkPrometheus ++
  c.checkPlugin++c.checkGRPC++c.checkSandbox++c.checkPluginGateway++c.checkChecker ++
  c.checkGateway++c.checkTracing++c.checkAlerting++c.checkFederation

/-- `Validate`: `none` is the nil error. -/
def validate (c : Config) : Option String := (c.checks.find? Check.failed).map Check.message

theorem validate_eq_none (c : Config) : c.validate=none ↔ ∀ k∈c.checks, k.failed=false := by
  simp [validate]

end Config
end OpsAgent
