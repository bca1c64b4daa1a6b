import OpsAgent.Lib.GoValue

/-!
# The runtime configuration (`config/config.go`)

A slice or a map that is compared with `reflect.DeepEqual` somewhere is an option, since that
comparison tells nil from empty; the others are plain lists.
-/

namespace OpsAgent
open Lib.GoValue

abbrev AnyMap := Option (List (String × Val))

structure AuditLogConfig where
  enabled : Bool
  path : String
  (maxSizeMB maxBackups : Int)
  deriving DecidableEq

@[ext]
structure AgentConfig where
  (id name mode : String)
  (intervalSeconds shutdownTimeoutSeconds : Int)
  auditLog : AuditLogConfig
  deriving DecidableEq

@[ext]
structure ServerConfig where
  listenAddr : String
  deriving DecidableEq

@[ext]
structure ExecutorConfig where
  timeoutSeconds : Int
  allowedCommands : Option (List String)
  maxOutputBytes : Int
  deriving DecidableEq

structure ReporterConfig where
  (mode endpoint : String)
  (timeoutSeconds retryCount retryIntervalMS : Int)
  deriving DecidableEq

structure AuthConfig where
  enabled : Bool
  bearerToken : String
  deriving DecidableEq

structure PrometheusConfig where
  enabled : Bool
  path : String
  protectWithAuth : Bool
  deriving DecidableEq

structure PluginConfig where
  enabled : Bool
  (runtimePath socketPath : String)
  autoStart : Bool
  (startupTimeoutSeconds requestTimeoutSeconds maxConcurrentTasks maxResultBytes chunkSizeBytes : Int)
  sandboxProfile : String
  deriving DecidableEq

structure MTLSConfig where
  (certFile keyFile caFile : String)
  deriving DecidableEq

@[ext]
structure GRPCConfig where
  (serverAddr enrollToken : String)
  mtls : MTLSConfig
  (heartbeatIntervalSeconds reconnectInitialBackoffMS reconnectMaxBackoffMS : Int)
  cachePersistPath : String
  deriving DecidableEq

structure PolicyConfig where
  (allowedCommands blockedCommands blockedKeywords allowedInterpreters : Option (List String))
  scriptMaxBytes : Int
  shellInjectionCheck : Bool
  deriving DecidableEq

structure SandboxConfig where
  enabled : Bool
  (nsjailPath baseWorkdir : String)
  (defaultTimeoutSeconds maxConcurrentTasks : Int)
  (cgroupBasePath auditLogPath : String)
  policy : PolicyConfig
  allowUnsandboxedFallback : Bool
  deriving DecidableEq

structure PluginInstanceConfig where
  type : String
  config : AnyMap

structure CollectorConfig where
  (inputs processors aggregators outputs : Option (List PluginInstanceConfig))

structure PluginGatewayConfig where
  enabled : Bool
  pluginsDir : String
  (startupTimeoutSeconds healthCheckIntervalSecs maxRestarts restartBackoffSeconds : Int)
  fileWatchDebounceSecs : Int
  pluginConfigs : Option (List (String × AnyMap))

structure CheckerConfig where
  enabled : Bool
  (maxConcurrent defaultTimeoutSeconds : Int)
  disabledCheckers : Option (List String)
  deriving DecidableEq

@[ext]
structure GatewaySSHConfig where
  (user password keyFile : String)
  port : Int
  deriving DecidableEq

@[ext]
structure GatewayHostConfig where
  (id addr mode : String)
  ssh : GatewaySSHConfig
  deriving DecidableEq

@[ext]
structure GatewayConfig where
  enabled : Bool
  listenAddr : String
  (maxTunnels tunnelTimeoutSeconds idleTimeoutSeconds : Int)
  hosts : List GatewayHostConfig
  deriving DecidableEq

structure TracingReceiver where
  (grpcAddr httpAddr : String)
  deriving DecidableEq

structure TracingProcessor where
  (batchTimeoutMs maxBatchSize : Int)
  deriving DecidableEq

structure TracingExporter where
  (endpoint protocol : String)
  deriving DecidableEq

structure TracingConfig where
  enabled : Bool
  receiver : TracingReceiver
  processor : TracingProcessor
  exporter : TracingExporter
  deriving DecidableEq

structure AlertCondition where
  (metric operator : String)
  threshold : Float64
  for_ : String

structure AlertNotify where
  (type url : String)
  headers : Option (List (String × String))
  deriving DecidableEq

structure AlertRule where
  name : String
  condition : AlertCondition
  severity : String
  notify : Option (List AlertNotify)

structure AlertingConfig where
  enabled : Bool
  rules : Option (List AlertRule)

structure DiscoveryLayerConfig where
  type : String
  enabled : Bool
  deriving DecidableEq

structure DiscoveryConfig where
  enabled : Bool
  intervalSec : Int
  layers : List DiscoveryLayerConfig
  deriving DecidableEq

structure UpdaterConfig where
  enabled : Bool
  (currentPath backupPath downloadDir : String)
  deriving DecidableEq

structure WASMConfig where
  enabled : Bool
  pluginsDir : String
  maxModules : Int
  cacheDir : String
  deriving DecidableEq

structure FederationSecurity where
  mtls : MTLSConfig
  psk : String
  deriving DecidableEq

structure GroupRuleConfig where
  name : String
  rule : Option (List (String × String))
  deriving DecidableEq

structure ConfigLevelsConfig where
  global : AnyMap
  (regions groups agents : Option (List (String × AnyMap)))

structure CanaryStageConfig where
  (percentage waitSeconds : Int)
  autoRollback : Bool
  deriving DecidableEq

structure CanaryConfig where
  strategy : String
  stages : List CanaryStageConfig
  deriving DecidableEq

structure RetryPolicyConfig where
  (maxRetries backoffSeconds : Int)
  deriving DecidableEq

structure OperationsConfig where
  (maxConcurrent defaultTimeoutSeconds : Int)
  retryPolicy : RetryPolicyConfig
  deriving DecidableEq

structure FallbackConfig where
  enabled : Bool
  (mode platformAddr : String)
  checkIntervalSec : Int
  deriving DecidableEq

structure FederationHubConfig where
  (listenAddr region : String)
  (maxLeaves leafHeartbeatTimeoutSeconds metricsAggregationIntervalSec : Int)
  security : FederationSecurity
  groups : List GroupRuleConfig
  configLevels : ConfigLevelsConfig
  canary : CanaryConfig
  operations : OperationsConfig

structure FederationLeafConfig where
  hubAddr : String
  (reconnectIntervalSec reportIntervalSec : Int)
  fallback : FallbackConfig
  deriving DecidableEq

structure FederationConfig where
  enabled : Bool
  hub : FederationHubConfig
  leaf : FederationLeafConfig

structure Config where
  agent : AgentConfig
  server : ServerConfig
  executor : ExecutorConfig
  reporter : ReporterConfig
  auth : AuthConfig
  prometheus : PrometheusConfig
  plugin : PluginConfig
  grpc : GRPCConfig
  sandbox : SandboxConfig
  collector : CollectorConfig
  pluginGateway : PluginGatewayConfig
  checker : CheckerConfig
  gateway : GatewayConfig
  tracing : TracingConfig
  alerting : AlertingConfig
  discovery : DiscoveryConfig
  updater : UpdaterConfig
  wasm : WASMConfig
  federation : FederationConfig

/-! ### Deep equality of the sections with maps or floating-point numbers in them

For the other sections `reflect.DeepEqual` and `==` are equality. -/

def anyMapEqual (m n : AnyMap) : Bool := mapEqual Val.deepEqual m n
def PluginInstanceConfig.deepEqual (a b : PluginInstanceConfig) : Bool :=
  a.type == b.type&&anyMapEqual a.config b.config

def CollectorConfig.deepEqual (a b : CollectorConfig) : Bool :=
  sliceEqual PluginInstanceConfig.deepEqual a.inputs b.inputs &&
  sliceEqual PluginInstanceConfig.deepEqual a.processors b.processors &&
  sliceEqual PluginInstanceConfig.deepEqual a.aggregators b.aggregators &&
  sliceEqual PluginInstanceConfig.deepEqual a.outputs b.outputs

def PluginGatewayConfig.deepEqual (a b : PluginGatewayConfig) : Bool :=
  a.enabled == b.enabled&&a.pluginsDir == b.pluginsDir &&
  a.startupTimeoutSeconds == b.startupTimeoutSeconds &&
  a.healthCheckIntervalSecs == b.healthCheckIntervalSecs &&
  a.maxRestarts == b.maxRestarts &&
  a.restartBackoffSeconds == b.restartBackoffSeconds &&
  a.fileWatchDebounceSecs == b.fileWatchDebounceSecs &&
  mapEqual anyMapEqual a.pluginConfigs b.pluginConfigs

def AlertRule.deepEqual (a b : AlertRule) : Bool :=
  a.name == b.name&&a.condition.metric == b.condition.metric &&
  a.condition.operator == b.condition.operator &&
  a.condition.threshold.eq b.condition.threshold&&a.condition.for_ == b.condition.for_ &&
  a.severity == b.severity&&a.notify == b.notify

def AlertingConfig.deepEqual (a b : AlertingConfig) : Bool :=
  a.enabled == b.enabled&&sliceEqual AlertRule.deepEqual a.rules b.rules
def ConfigLevelsConfig.deepEqual (a b : ConfigLevelsConfig) : Bool :=
  anyMapEqual a.global b.global&&mapEqual anyMapEqual a.regions b.regions &&
  mapEqual anyMapEqual a.groups b.groups&&mapEqual anyMapEqual a.agents b.agents

def FederationHubConfig.deepEqual (a b : FederationHubConfig) : Bool :=
  a.listenAddr == b.listenAddr&&a.region == b.region&&a.maxLeaves == b.maxLeaves &&
  a.leafHeartbeatTimeoutSeconds == b.leafHeartbeatTimeoutSeconds &&
  a.metricsAggregationIntervalSec == b.metricsAggregationIntervalSec &&
  a.security == b.security&&a.groups == b.groups &&
  a.configLevels.deepEqual b.configLevels&&a.canary == b.canary&&a.operations == b.operations

def FederationConfig.deepEqual (a b : FederationConfig) : Bool :=
  a.enabled == b.enabled&&a.hub.deepEqual b.hub&&a.leaf == b.leaf
def anyMapNanFree (m : AnyMap) : Bool := mapAll Val.nanFree m

def CollectorConfig.nanFree (c : CollectorConfig) : Bool :=
  sliceAll (fun p => anyMapNanFree p.config) c.inputs &&
  sliceAll (fun p => anyMapNanFree p.config) c.processors &&
  sliceAll (fun p => anyMapNanFree p.config) c.aggregators &&
  sliceAll (fun p => anyMapNanFree p.config) c.outputs

def PluginGatewayConfig.nanFree (c : PluginGatewayConfig) : Bool :=
  mapAll anyMapNanFree c.pluginConfigs
def AlertingConfig.nanFree (c : AlertingConfig) : Bool :=
  sliceAll (fun r => !r.condition.threshold.isNaN) c.rules

theorem anyMapEqual_self (m : AnyMap) : anyMapEqual m m=anyMapNanFree m :=
  mapEqual_self Val.deepEqual_self m

theorem collector_deepEqual_self (c : CollectorConfig) : c.deepEqual c=c.nanFree := by
  have h : ∀ p : PluginInstanceConfig, p.deepEqual p=anyMapNanFree p.config := by
    intro p
    simp [PluginInstanceConfig.deepEqual,anyMapEqual_self]
  simp only [CollectorConfig.deepEqual,CollectorConfig.nanFree,sliceEqual_self h]

theorem pluginGateway_deepEqual_self (c : PluginGatewayConfig) : c.deepEqual c=c.nanFree := by
  simp [PluginGatewayConfig.deepEqual,PluginGatewayConfig.nanFree,mapEqual_self anyMapEqual_self]

theorem alerting_deepEqual_self (c : AlertingConfig) : c.deepEqual c=c.nanFree := by
  have h : ∀ r : AlertRule, r.deepEqual r = !r.condition.threshold.isNaN := by
    intro r
    simp [AlertRule.deepEqual,Float64.eq_self]
  simp [AlertingConfig.deepEqual,AlertingConfig.nanFree,sliceEqual_self h]

end OpsAgent
