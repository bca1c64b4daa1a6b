import OpsAgent.Config.Validate
import OpsAgent.Lib.GoStrings

/-!
# Reading a configuration (`Load` and `parseYAMLConfig`)

`Viper` is what viper and mapstructure do, with the law that a value of a field's own type decodes to
itself. `parseYAMLConfig` registers no defaults.
-/

namespace OpsAgent
open Lib.GoValue
open Lib.GoStrings (GoString utf8 decimal)

inductive Kind where
  | string | int | bool | strings | plugins | anyMap | levels | hosts | rules | layers | groups
  | stages

abbrev Kind.Carrier : Kind → Type
  | .string => String
  | .int => Int
  | .bool => Bool
  | .strings => Option (List String)
  | .plugins => Option (List PluginInstanceConfig)
  | .anyMap => AnyMap
  | .levels => Option (List (String × AnyMap))
  | .hosts => List GatewayHostConfig
  | .rules => Option (List AlertRule)
  | .layers => List DiscoveryLayerConfig
  | .groups => List GroupRuleConfig
  | .stages => List CanaryStageConfig

def Kind.zero : (k : Kind) → k.Carrier
  | .string => ""
  | .int => (0 : Int)
  | .bool => false
  | .strings => none
  | .plugins => none
  | .anyMap => none
  | .levels => none
  | .hosts => []
  | .rules => none
  | .layers => []
  | .groups => []
  | .stages => []

/-- The fields that are not themselves structs, by the key that reaches them. -/
inductive Key where
  | agentId | agentName | agentMode | agentIntervalSeconds | agentShutdownTimeoutSeconds
  | agentAuditLogEnabled | agentAuditLogPath | agentAuditLogMaxSizeMb | agentAuditLogMaxBackups
  | serverListenAddr
  | executorTimeoutSeconds | executorAllowedCommands | executorMaxOutputBytes
  | reporterMode | reporterEndpoint | reporterTimeoutSeconds | reporterRetryCount
  | reporterRetryIntervalMs
  | authEnabled | authBearerToken
  | prometheusEnabled | prometheusPath | prometheusProtectWithAuth
  | pluginEnabled | pluginRuntimePath | pluginSocketPath | pluginAutoStart
  | pluginStartupTimeoutSeconds | pluginRequestTimeoutSeconds | pluginMaxConcurrentTasks
  | pluginMaxResultBytes | pluginChunkSizeBytes | pluginSandboxProfile
  | grpcServerAddr | grpcEnrollToken | grpcMtlsCertFile | grpcMtlsKeyFile | grpcMtlsCaFile
  | grpcHeartbeatIntervalSeconds | grpcReconnectInitialBackoffMs | grpcReconnectMaxBackoffMs
  | grpcCachePersistPath
  | sandboxEnabled | sandboxNsjailPath | sandboxBaseWorkdir | sandboxDefaultTimeoutSeconds
  | sandboxMaxConcurrentTasks | sandboxCgroupBasePath | sandboxAuditLogPath
  | sandboxPolicyAllowedCommands | sandboxPolicyBlockedCommands | sandboxPolicyBlockedKeywords
  | sandboxPolicyAllowedInterpreters | sandboxPolicyScriptMaxBytes
  | sandboxPolicyShellInjectionCheck | sandboxAllowUnsandboxedFallback
  | collectorInputs | collectorProcessors | collectorAggregators | collectorOutputs
  | pluginGatewayEnabled | pluginGatewayPluginsDir | pluginGatewayStartupTimeoutSeconds
  | pluginGatewayHealthCheckIntervalSeconds | pluginGatewayMaxRestarts
  | pluginGatewayRestartBackoffSeconds | pluginGatewayFileWatchDebounceSeconds
  | pluginGatewayPluginConfigs
  | checkerEnabled | checkerMaxConcurrent | checkerDefaultTimeoutSeconds
  | checkerDisabledCheckers
  | gatewayEnabled | gatewayListenAddr | gatewayMaxTunnels | gatewayTunnelTimeoutSeconds
  | gatewayIdleTimeoutSeconds | gatewayHosts
  | tracingEnabled | tracingReceiverGrpcAddr | tracingReceiverHttpAddr
  | tracingProcessorBatchTimeoutMs | tracingProcessorMaxBatchSize | tracingExporterEndpoint
  | tracingExporterProtocol
  | alertingEnabled | alertingRules
  | discoveryEnabled | discoveryIntervalSeconds | discoveryLayers
  | updaterEnabled | updaterCurrentPath | updaterBackupPath | updaterDownloadDir
  | wasmEnabled | wasmPluginsDir | wasmMaxModules | wasmCacheDir
  | federationEnabled | federationHubListenAddr | federationHubRegion | federationHubMaxLeaves
  | federationHubLeafHeartbeatTimeoutSeconds | federationHubMetricsAggregationIntervalSeconds
  | federationHubSecurityMtlsCertFile | federationHubSecurityMtlsKeyFile
  | federationHubSecurityMtlsCaFile | federationHubSecurityPsk | federationHubGroups
  | federationHubConfigLevelsGlobal | federationHubConfigLevelsRegions
  | federationHubConfigLevelsGroups | federationHubConfigLevelsAgents
  | federationHubCanaryStrategy | federationHubCanaryStages
  | federationHubOperationsMaxConcurrent | federationHubOperationsDefaultTimeoutSeconds
  | federationHubOperationsRetryPolicyMaxRetries
  | federationHubOperationsRetryPolicyBackoffSeconds | federationLeafHubAddr
  | federationLeafReconnectIntervalSeconds | federationLeafReportIntervalSeconds
  | federationLeafFallbackEnabled | federationLeafFallbackMode
  | federationLeafFallbackPlatformAddr | federationLeafFallbackCheckIntervalSeconds
  deriving DecidableEq

structure KeyField where
  path : String
  kind : Kind
  -- the `SetDefault` call of `Load`
  default : Option Val
  get : Config → kind.Carrier

namespace KeyField

@[reducible] def string (path default : String) : (Config → String) → KeyField :=
  .mk path .string (some (.str default))
@[reducible] def int (path : String) (default : Int) : (Config → Int) → KeyField :=
  .mk path .int (some (.int default))
@[reducible] def bool (path : String) (default : Bool) : (Config → Bool) → KeyField :=
  .mk path .bool (some (.bool default))

end KeyField

namespace Key

@[reducible]
def field : Key → KeyField
  | .agentId => ⟨"agent.id",.string,none,(·.agent.id)⟩
  | .agentName => ⟨"agent.name",.string,none,(·.agent.name)⟩
  | .agentMode => .string "agent.mode" Config.agentModeStandalone (·.agent.mode)
  | .agentIntervalSeconds => .int "agent.interval_seconds" 10 (·.agent.intervalSeconds)
  | .agentShutdownTimeoutSeconds => .int "agent.shutdown_timeout_seconds" 30 (·.agent.shutdownTimeoutSeconds)
  | .agentAuditLogEnabled => .bool "agent.audit_log.enabled" false (·.agent.auditLog.enabled)
  | .agentAuditLogPath => .string "agent.audit_log.path" "/var/log/opsagent/audit.jsonl" (·.agent.auditLog.path)
  | .agentAuditLogMaxSizeMb => .int "agent.audit_log.max_size_mb" 100 (·.agent.auditLog.maxSizeMB)
  | .agentAuditLogMaxBackups => .int "agent.audit_log.max_backups" 5 (·.agent.auditLog.maxBackups)
  | .serverListenAddr => .string "server.listen_addr" "127.0.0.1:18080" (·.server.listenAddr)
  | .executorTimeoutSeconds => .int "executor.timeout_seconds" 10 (·.executor.timeoutSeconds)
  | .executorAllowedCommands => ⟨"executor.allowed_commands",.strings,none,(·.executor.allowedCommands)⟩
  | .executorMaxOutputBytes => .int "executor.max_output_bytes" 65536 (·.executor.maxOutputBytes)
  | .reporterMode => .string "reporter.mode" "stdout" (·.reporter.mode)
  | .reporterEndpoint => ⟨"reporter.endpoint",.string,none,(·.reporter.endpoint)⟩
  | .reporterTimeoutSeconds => .int "reporter.timeout_seconds" 5 (·.reporter.timeoutSeconds)
  | .reporterRetryCount => .int "reporter.retry_count" 3 (·.reporter.retryCount)
  | .reporterRetryIntervalMs => .int "reporter.retry_interval_ms" 500 (·.reporter.retryIntervalMS)
  | .authEnabled => .bool "auth.enabled" true (·.auth.enabled)
  | .authBearerToken => ⟨"auth.bearer_token",.string,none,(·.auth.bearerToken)⟩
  | .prometheusEnabled => .bool "prometheus.enabled" true (·.prometheus.enabled)
  | .prometheusPath => .string "prometheus.path" "/metrics" (·.prometheus.path)
  | .prometheusProtectWithAuth => .bool "prometheus.protect_with_auth" false (·.prometheus.protectWithAuth)
  | .pluginEnabled => .bool "plugin.enabled" false (·.plugin.enabled)
  | .pluginRuntimePath => .string "plugin.runtime_path" "./rust-runtime/target/release/github.com/cy77cc/opsagent-rust-runtime" (·.plugin.runtimePath)
  | .pluginSocketPath => .string "plugin.socket_path" "/tmp/github.com/cy77cc/opsagent/plugin.sock" (·.plugin.socketPath)
  | .pluginAutoStart => .bool "plugin.auto_start" true (·.plugin.autoStart)
  | .pluginStartupTimeoutSeconds => .int "plugin.startup_timeout_seconds" 5 (·.plugin.startupTimeoutSeconds)
  | .pluginRequestTimeoutSeconds => .int "plugin.request_timeout_seconds" 30 (·.plugin.requestTimeoutSeconds)
  | .pluginMaxConcurrentTasks => .int "plugin.max_concurrent_tasks" 4 (·.plugin.maxConcurrentTasks)
  | .pluginMaxResultBytes => .int "plugin.max_result_bytes" 8388608 (·.plugin.maxResultBytes)
  | .pluginChunkSizeBytes => .int "plugin.chunk_size_bytes" 262144 (·.plugin.chunkSizeBytes)
  | .pluginSandboxProfile => .string "plugin.sandbox_profile" "strict" (·.plugin.sandboxProfile)
  | .grpcServerAddr => ⟨"grpc.server_addr",.string,none,(·.grpc.serverAddr)⟩
  | .grpcEnrollToken => ⟨"grpc.enroll_token",.string,none,(·.grpc.enrollToken)⟩
  | .grpcMtlsCertFile => ⟨"grpc.mtls.cert_file",.string,none,(·.grpc.mtls.certFile)⟩
  | .grpcMtlsKeyFile => ⟨"grpc.mtls.key_file",.string,none,(·.grpc.mtls.keyFile)⟩
  | .grpcMtlsCaFile => ⟨"grpc.mtls.ca_file",.string,none,(·.grpc.mtls.caFile)⟩
  | .grpcHeartbeatIntervalSeconds => .int "grpc.heartbeat_interval_seconds" 15 (·.grpc.heartbeatIntervalSeconds)
  | .grpcReconnectInitialBackoffMs => .int "grpc.reconnect_initial_backoff_ms" 1000 (·.grpc.reconnectInitialBackoffMS)
  | .grpcReconnectMaxBackoffMs => .int "grpc.reconnect_max_backoff_ms" 30000 (·.grpc.reconnectMaxBackoffMS)
  | .grpcCachePersistPath => .string "grpc.cache_persist_path" "" (·.grpc.cachePersistPath)
  | .sandboxEnabled => .bool "sandbox.enabled" false (·.sandbox.enabled)
  | .sandboxNsjailPath => ⟨"sandbox.nsjail_path",.string,none,(·.sandbox.nsjailPath)⟩
  | .sandboxBaseWorkdir => ⟨"sandbox.base_workdir",.string,none,(·.sandbox.baseWorkdir)⟩
  | .sandboxDefaultTimeoutSeconds => .int "sandbox.default_timeout_seconds" 30 (·.sandbox.defaultTimeoutSeconds)
  | .sandboxMaxConcurrentTasks => .int "sandbox.max_concurrent_tasks" 4 (·.sandbox.maxConcurrentTasks)
  | .sandboxCgroupBasePath => ⟨"sandbox.cgroup_base_path",.string,none,(·.sandbox.cgroupBasePath)⟩
  | .sandboxAuditLogPath => ⟨"sandbox.audit_log_path",.string,none,(·.sandbox.auditLogPath)⟩
  | .sandboxPolicyAllowedCommands => ⟨"sandbox.policy.allowed_commands",.strings,none,(·.sandbox.policy.allowedCommands)⟩
  | .sandboxPolicyBlockedCommands => ⟨"sandbox.policy.blocked_commands",.strings,none,(·.sandbox.policy.blockedCommands)⟩
  | .sandboxPolicyBlockedKeywords => ⟨"sandbox.policy.blocked_keywords",.strings,none,(·.sandbox.policy.blockedKeywords)⟩
  | .sandboxPolicyAllowedInterpreters => ⟨"sandbox.policy.allowed_interpreters",.strings,none,(·.sandbox.policy.allowedInterpreters)⟩
  | .sandboxPolicyScriptMaxBytes => .int "sandbox.policy.script_max_bytes" 65536 (·.sandbox.policy.scriptMaxBytes)
  | .sandboxPolicyShellInjectionCheck => .bool "sandbox.policy.shell_injection_check" true (·.sandbox.policy.shellInjectionCheck)
  | .sandboxAllowUnsandboxedFallback => ⟨"sandbox.allow_unsandboxed_fallback",.bool,none,(·.sandbox.allowUnsandboxedFallback)⟩
  | .collectorInputs => ⟨"collector.inputs",.plugins,none,(·.collector.inputs)⟩
  | .collectorProcessors => ⟨"collector.processors",.plugins,none,(·.collector.processors)⟩
  | .collectorAggregators => ⟨"collector.aggregators",.plugins,none,(·.collector.aggregators)⟩
  | .collectorOutputs => ⟨"collector.outputs",.plugins,none,(·.collector.outputs)⟩
  | .pluginGatewayEnabled => .bool "plugin_gateway.enabled" false (·.pluginGateway.enabled)
  | .pluginGatewayPluginsDir => .string "plugin_gateway.plugins_dir" "/etc/opsagent/plugins" (·.pluginGateway.pluginsDir)
  | .pluginGatewayStartupTimeoutSeconds => .int "plugin_gateway.startup_timeout_seconds" 10 (·.pluginGateway.startupTimeoutSeconds)
  | .pluginGatewayHealthCheckIntervalSeconds => .int "plugin_gateway.health_check_interval_seconds" 30 (·.pluginGateway.healthCheckIntervalSecs)
  | .pluginGatewayMaxRestarts => .int "plugin_gateway.max_restarts" 3 (·.pluginGateway.maxRestarts)
  | .pluginGatewayRestartBackoffSeconds => .int "plugin_gateway.restart_backoff_seconds" 5 (·.pluginGateway.restartBackoffSeconds)
  | .pluginGatewayFileWatchDebounceSeconds => .int "plugin_gateway.file_watch_debounce_seconds" 2 (·.pluginGateway.fileWatchDebounceSecs)
  | .pluginGatewayPluginConfigs => ⟨"plugin_gateway.plugin_configs",.levels,none,(·.pluginGateway.pluginConfigs)⟩
  | .checkerEnabled => .bool "checker.enabled" true (·.checker.enabled)
  | .checkerMaxConcurrent => .int "checker.max_concurrent" 5 (·.checker.maxConcurrent)
  | .checkerDefaultTimeoutSeconds => .int "checker.default_timeout_seconds" 30 (·.checker.defaultTimeoutSeconds)
  | .checkerDisabledCheckers => ⟨"checker.disabled_checkers",.strings,none,(·.checker.disabledCheckers)⟩
  | .gatewayEnabled => .bool "gateway.enabled" false (·.gateway.enabled)
  | .gatewayListenAddr => .string "gateway.listen_addr" ":18081" (·.gateway.listenAddr)
  | .gatewayMaxTunnels => .int "gateway.max_tunnels" 100 (·.gateway.maxTunnels)
  | .gatewayTunnelTimeoutSeconds => .int "gateway.tunnel_timeout_seconds" 30 (·.gateway.tunnelTimeoutSeconds)
  | .gatewayIdleTimeoutSeconds => .int "gateway.idle_timeout_seconds" 300 (·.gateway.idleTimeoutSeconds)
  | .gatewayHosts => ⟨"gateway.hosts",.hosts,none,(·.gateway.hosts)⟩
  | .tracingEnabled => .bool "tracing.enabled" false (·.tracing.enabled)
  | .tracingReceiverGrpcAddr => .string "tracing.receiver.grpc_addr" "0.0.0.0:4317" (·.tracing.receiver.grpcAddr)
  | .tracingReceiverHttpAddr => .string "tracing.receiver.http_addr" "0.0.0.0:4318" (·.tracing.receiver.httpAddr)
  | .tracingProcessorBatchTimeoutMs => .int "tracing.processor.batch_timeout_ms" 5000 (·.tracing.processor.batchTimeoutMs)
  | .tracingProcessorMaxBatchSize => .int "tracing.processor.max_batch_size" 512 (·.tracing.processor.maxBatchSize)
  | .tracingExporterEndpoint => ⟨"tracing.exporter.endpoint",.string,none,(·.tracing.exporter.endpoint)⟩
  | .tracingExporterProtocol => .string "tracing.exporter.protocol" "grpc" (·.tracing.exporter.protocol)
  | .alertingEnabled => .bool "alerting.enabled" false (·.alerting.enabled)
  | .alertingRules => ⟨"alerting.rules",.rules,none,(·.alerting.rules)⟩
  | .discoveryEnabled => .bool "discovery.enabled" false (·.discovery.enabled)
  | .discoveryIntervalSeconds => .int "discovery.interval_seconds" 300 (·.discovery.intervalSec)
  | .discoveryLayers => ⟨"discovery.layers",.layers,none,(·.discovery.layers)⟩
  | .updaterEnabled => .bool "updater.enabled" false (·.updater.enabled)
  | .updaterCurrentPath => ⟨"updater.current_path",.string,none,(·.updater.currentPath)⟩
  | .updaterBackupPath => ⟨"updater.backup_path",.string,none,(·.updater.backupPath)⟩
  | .updaterDownloadDir => ⟨"updater.download_dir",.string,none,(·.updater.downloadDir)⟩
  | .wasmEnabled => .bool "wasm.enabled" false (·.wasm.enabled)
  | .wasmPluginsDir => .string "wasm.plugins_dir" "/etc/opsagent/wasm-plugins" (·.wasm.pluginsDir)
  | .wasmMaxModules => .int "wasm.max_modules" 10 (·.wasm.maxModules)
  | .wasmCacheDir => .string "wasm.cache_dir" "/var/lib/opsagent/wasm-cache" (·.wasm.cacheDir)
  | .federationEnabled => .bool "federation.enabled" false (·.federation.enabled)
  | .federationHubListenAddr => .string "federation.hub.listen_addr" ":9443" (·.federation.hub.listenAddr)
  | .federationHubRegion => ⟨"federation.hub.region",.string,none,(·.federation.hub.region)⟩
  | .federationHubMaxLeaves => .int "federation.hub.max_leaves" 500 (·.federation.hub.maxLeaves)
  | .federationHubLeafHeartbeatTimeoutSeconds => .int "federation.hub.leaf_heartbeat_timeout_seconds" 60 (·.federation.hub.leafHeartbeatTimeoutSeconds)
  | .federationHubMetricsAggregationIntervalSeconds => .int "federation.hub.metrics_aggregation_interval_seconds" 30 (·.federation.hub.metricsAggregationIntervalSec)
  | .federationHubSecurityMtlsCertFile => ⟨"federation.hub.security.mtls.cert_file",.string,none,(·.federation.hub.security.mtls.certFile)⟩
  | .federationHubSecurityMtlsKeyFile => ⟨"federation.hub.security.mtls.key_file",.string,none,(·.federation.hub.security.mtls.keyFile)⟩
  | .federationHubSecurityMtlsCaFile => ⟨"federation.hub.security.mtls.ca_file",.string,none,(·.federation.hub.security.mtls.caFile)⟩
  | .federationHubSecurityPsk => ⟨"federation.hub.security.psk",.string,none,(·.federation.hub.security.psk)⟩
  | .federationHubGroups => ⟨"federation.hub.groups",.groups,none,(·.federation.hub.groups)⟩
  | .federationHubConfigLevelsGlobal => ⟨"federation.hub.config_levels.global",.anyMap,none,(·.federation.hub.configLevels.global)⟩
  | .federationHubConfigLevelsRegions => ⟨"federation.hub.config_levels.regions",.levels,none,(·.federation.hub.configLevels.regions)⟩
  | .federationHubConfigLevelsGroups => ⟨"federation.hub.config_levels.groups",.levels,none,(·.federation.hub.configLevels.groups)⟩
  | .federationHubConfigLevelsAgents => ⟨"federation.hub.config_levels.agents",.levels,none,(·.federation.hub.configLevels.agents)⟩
  | .federationHubCanaryStrategy => .string "federation.hub.canary.strategy" "percentage" (·.federation.hub.canary.strategy)
  | .federationHubCanaryStages => ⟨"federation.hub.canary.stages",.stages,none,(·.federation.hub.canary.stages)⟩
  | .federationHubOperationsMaxConcurrent => .int "federation.hub.operations.max_concurrent" 50 (·.federation.hub.operations.maxConcurrent)
  | .federationHubOperationsDefaultTimeoutSeconds => .int "federation.hub.operations.default_timeout_seconds" 300 (·.federation.hub.operations.defaultTimeoutSeconds)
  | .federationHubOperationsRetryPolicyMaxRetries => .int "federation.hub.operations.retry_policy.max_retries" 3 (·.federation.hub.operations.retryPolicy.maxRetries)
  | .federationHubOperationsRetryPolicyBackoffSeconds => .int "federation.hub.operations.retry_policy.backoff_seconds" 10 (·.federation.hub.operations.retryPolicy.backoffSeconds)
  | .federationLeafHubAddr => ⟨"federation.leaf.hub_addr",.string,none,(·.federation.leaf.hubAddr)⟩
  | .federationLeafReconnectIntervalSeconds => .int "federation.leaf.reconnect_interval_seconds" 5 (·.federation.leaf.reconnectIntervalSec)
  | .federationLeafReportIntervalSeconds => .int "federation.leaf.report_interval_seconds" 30 (·.federation.leaf.reportIntervalSec)
  | .federationLeafFallbackEnabled => .bool "federation.leaf.fallback.enabled" false (·.federation.leaf.fallback.enabled)
  | .federationLeafFallbackMode => .string "federation.leaf.fallback.mode" "standalone" (·.federation.leaf.fallback.mode)
  | .federationLeafFallbackPlatformAddr => ⟨"federation.leaf.fallback.platform_addr",.string,none,(·.federation.leaf.fallback.platformAddr)⟩
  | .federationLeafFallbackCheckIntervalSeconds => .int "federation.leaf.fallback.check_interval_seconds" 30 (·.federation.leaf.fallback.checkIntervalSec)

def path (k : Key) : String := k.field.path
def default (k : Key) : Option Val := k.field.default
@[reducible]
def kind (k : Key) : Kind := k.field.kind
def get (k : Key) : Config → k.kind.Carrier := k.field.get

def all : List Key := (List.range 126).map Key.ofNat

theorem mem_all (k : Key) : k∈all := by cases k <;> decide

end Key

def Config.build (rd : (k : Key) → k.kind.Carrier) : Config where
  agent := ⟨rd .agentId,rd .agentName,rd .agentMode,rd .agentIntervalSeconds,
    rd .agentShutdownTimeoutSeconds,⟨rd .agentAuditLogEnabled,rd .agentAuditLogPath,
    rd .agentAuditLogMaxSizeMb,rd .agentAuditLogMaxBackups⟩⟩
  server := ⟨rd .serverListenAddr⟩
  executor := ⟨rd .executorTimeoutSeconds,rd .executorAllowedCommands,rd .executorMaxOutputBytes⟩
  reporter := ⟨rd .reporterMode,rd .reporterEndpoint,rd .reporterTimeoutSeconds,
    rd .reporterRetryCount,rd .reporterRetryIntervalMs⟩
  auth := ⟨rd .authEnabled,rd .authBearerToken⟩
  prometheus := ⟨rd .prometheusEnabled,rd .prometheusPath,rd .prometheusProtectWithAuth⟩
  plugin := ⟨rd .pluginEnabled,rd .pluginRuntimePath,rd .pluginSocketPath,rd .pluginAutoStart,
    rd .pluginStartupTimeoutSeconds,rd .pluginRequestTimeoutSeconds,rd .pluginMaxConcurrentTasks,
    rd .pluginMaxResultBytes,rd .pluginChunkSizeBytes,rd .pluginSandboxProfile⟩
  grpc := ⟨rd .grpcServerAddr,rd .grpcEnrollToken,⟨rd .grpcMtlsCertFile,rd .grpcMtlsKeyFile,
    rd .grpcMtlsCaFile⟩,rd .grpcHeartbeatIntervalSeconds,rd .grpcReconnectInitialBackoffMs,
    rd .grpcReconnectMaxBackoffMs,rd .grpcCachePersistPath⟩
  sandbox := ⟨rd .sandboxEnabled,rd .sandboxNsjailPath,rd .sandboxBaseWorkdir,
    rd .sandboxDefaultTimeoutSeconds,rd .sandboxMaxConcurrentTasks,rd .sandboxCgroupBasePath,
    rd .sandboxAuditLogPath,⟨rd .sandboxPolicyAllowedCommands,rd .sandboxPolicyBlockedCommands,
    rd .sandboxPolicyBlockedKeywords,rd .sandboxPolicyAllowedInterpreters,
    rd .sandboxPolicyScriptMaxBytes,rd .sandboxPolicyShellInjectionCheck⟩,
    rd .sandboxAllowUnsandboxedFallback⟩
  collector := ⟨rd .collectorInputs,rd .collectorProcessors,rd .collectorAggregators,
    rd .collectorOutputs⟩
  pluginGateway := ⟨rd .pluginGatewayEnabled,rd .pluginGatewayPluginsDir,
    rd .pluginGatewayStartupTimeoutSeconds,rd .pluginGatewayHealthCheckIntervalSeconds,
    rd .pluginGatewayMaxRestarts,rd .pluginGatewayRestartBackoffSeconds,
    rd .pluginGatewayFileWatchDebounceSeconds,rd .pluginGatewayPluginConfigs⟩
  checker := ⟨rd .checkerEnabled,rd .checkerMaxConcurrent,rd .checkerDefaultTimeoutSeconds,
    rd .checkerDisabledCheckers⟩
  gateway := ⟨rd .gatewayEnabled,rd .gatewayListenAddr,rd .gatewayMaxTunnels,
    rd .gatewayTunnelTimeoutSeconds,rd .gatewayIdleTimeoutSeconds,rd .gatewayHosts⟩
  tracing := ⟨rd .tracingEnabled,⟨rd .tracingReceiverGrpcAddr,rd .tracingReceiverHttpAddr⟩,
    ⟨rd .tracingProcessorBatchTimeoutMs,rd .tracingProcessorMaxBatchSize⟩,
    ⟨rd .tracingExporterEndpoint,rd .tracingExporterProtocol⟩⟩
  alerting := ⟨rd .alertingEnabled,rd .alertingRules⟩
  discovery := ⟨rd .discoveryEnabled,rd .discoveryIntervalSeconds,rd .discoveryLayers⟩
  updater := ⟨rd .updaterEnabled,rd .updaterCurrentPath,rd .updaterBackupPath,
    rd .updaterDownloadDir⟩
  wasm := ⟨rd .wasmEnabled,rd .wasmPluginsDir,rd .wasmMaxModules,rd .wasmCacheDir⟩
  federation := ⟨rd .federationEnabled,⟨rd .federationHubListenAddr,rd .federationHubRegion,
    rd .federationHubMaxLeaves,rd .federationHubLeafHeartbeatTimeoutSeconds,
    rd .federationHubMetricsAggregationIntervalSeconds,⟨⟨rd .federationHubSecurityMtlsCertFile,
    rd .federationHubSecurityMtlsKeyFile,rd .federationHubSecurityMtlsCaFile⟩,
    rd .federationHubSecurityPsk⟩,rd .federationHubGroups,⟨rd .federationHubConfigLevelsGlobal,
    rd .federationHubConfigLevelsRegions,rd .federationHubConfigLevelsGroups,
    rd .federationHubConfigLevelsAgents⟩,⟨rd .federationHubCanaryStrategy,
    rd .federationHubCanaryStages⟩,⟨rd .federationHubOperationsMaxConcurrent,
    rd .federationHubOperationsDefaultTimeoutSeconds,
    ⟨rd .federationHubOperationsRetryPolicyMaxRetries,
    rd .federationHubOperationsRetryPolicyBackoffSeconds⟩⟩⟩,⟨rd .federationLeafHubAddr,
    rd .federationLeafReconnectIntervalSeconds,rd .federationLeafReportIntervalSeconds,
    ⟨rd .federationLeafFallbackEnabled,rd .federationLeafFallbackMode,
    rd .federationLeafFallbackPlatformAddr,rd .federationLeafFallbackCheckIntervalSeconds⟩⟩⟩

theorem Key.get_build (rd : (k : Key) → k.kind.Carrier) (k : Key) : k.get (Config.build rd)=rd k := by
  cases k <;> dsimp only [Key.get,Key.field,Config.build]

structure Settings where
  get : Key → Option Val
  unknown : List String

structure Viper where
  readConfig : List UInt8 → Except String Settings
  -- the decoded value, and the keys inside it that no field has
  decode : (k : Kind) → Val → Except String (k.Carrier × List String)
  -- the text for failed fields and, in exact mode, for unused keys
  report : List String → List String → String
  decode_string : ∀ s, decode .string (.str s)=.ok (s,[])
  decode_int : ∀ n, decode .int (.int n)=.ok (n,[])
  decode_bool : ∀ b, decode .bool (.bool b)=.ok (b,[])

namespace Settings

def withDefaults (s : Settings) : Settings :=
  {s with get := fun key => (s.get key).or key.default}

def read (V : Viper) (s : Settings) (key : Key) : key.kind.Carrier :=
  match s.get key with
  | none => key.kind.zero
  | some v => match V.decode key.kind v with
    | .ok out => out.1
    | .error _ => key.kind.zero

def fieldErrors (V : Viper) (s : Settings) : List String :=
  Key.all.filterMap fun key => match s.get key with
    | none => none
    | some v => match V.decode key.kind v with
      | .ok _ => none
      | .error err => some (key.path++": "++err)

def unused (V : Viper) (s : Settings) : List String :=
  s.unknown++Key.all.flatMap fun key => match s.get key with
    | none => []
    | some v => match V.decode key.kind v with
      | .ok out => out.2
      | .error _ => []

/-- `Unmarshal`, and `UnmarshalExact` when `exact`. -/
def unmarshal (V : Viper) (exact : Bool) (s : Settings) : Except String Config :=
  let errs:=s.fieldErrors V
  let keys := if exact then s.unused V else []
  if errs=[] ∧ keys=[] then .ok (Config.build (s.read V)) else .error (V.report errs keys)

end Settings

def load (V : Viper) (file : Except String (List UInt8)) : Except String Config :=
  match file.bind V.readConfig with
  | .error err => .error ("read config: "++err)
  | .ok s => match s.withDefaults.unmarshal V true with
    | .error err => .error ("unmarshal config: "++err)
    | .ok cfg => match cfg.validate with
      | some err => .error err
      | none => .ok cfg

def parseYAMLConfig (V : Viper) (data : List UInt8) : Except String Config :=
  match V.readConfig data with
  | .error err => .error ("parse config yaml: "++err)
  | .ok s => match s.unmarshal V false with
    | .error err => .error ("unmarshal config: "++err)
    | .ok cfg => .ok cfg

/-! ### A small viper

It knows one document, by its text, and decodes only values of a field's own type. -/

def decodeOwn : (k : Kind) → Val → Except String (k.Carrier × List String)
  | .string, .str s => .ok (s,[])
  | .int, .int n => .ok (n,[])
  | .bool, .bool b => .ok (b,[])
  | .strings, .seq xs =>
    .ok (some (xs.filterMap fun | .str s => some s | _ => none),[])
  | .plugins, .seq [.map [("type",.str type)]] => .ok (some [⟨type,none⟩],[])
  | _, _ => .error "unsupported value"

def quoted (s : String) : GoString := utf8 "\""++utf8 s++utf8 "\""
def yamlScalar : Val → GoString
  | .str s => quoted s
  | .int n => decimal n
  | .bool b => utf8 (toString b)
  | .map [(key,.str s)] => utf8 "\x7b"++utf8 key++utf8 ": "++quoted s++utf8 "\x7d"
  | _ => utf8 "~"
def yamlValue : Val → GoString
  | .seq xs => utf8 "["++(utf8 ", ").intercalate (xs.map yamlScalar)++utf8 "]"
  | v => yamlScalar v

/-- The lines of a key, without those of the mappings that it shares with the key before it. -/
def yamlLines (value indent : GoString) : List GoString → List GoString → GoString
  | _, [] => []
  | _, [name] => indent++name++utf8 ": "++value++utf8 "\n"
  | before, name::names =>
    if before.head?=some name then yamlLines value (utf8 "  "++indent) before.tail names
    else indent++name++utf8 ":\n"++yamlLines value (utf8 "  "++indent) [] names

def yamlFrom (get : Key → Option Val) : List GoString → List Key → GoString
  | _, [] => []
  | before, key::keys => match get key with
    | none => yamlFrom get before keys
    | some v =>
      -- the path is cut at its dots
      let names:=(utf8 key.path).splitOn 46
      yamlLines (yamlValue v) [] before names++yamlFrom get names keys

def yamlText (get : Key → Option Val) : GoString := yamlFrom get [] Key.all

def Viper.ofDocument (get : Key → Option Val) : Viper where
  readConfig data := if data=yamlText get then .ok ⟨get,[]⟩ else .error "another document"
  decode := decodeOwn
  report errs keys := " ".intercalate (errs++keys)
  decode_string _ := rfl
  decode_int _ := rfl
  decode_bool _ := rfl

def configOf (get : Key → Option Val) : Config :=
  Config.build ((⟨get,[]⟩ : Settings).read (Viper.ofDocument get))

theorem readConfig_yamlText (get : Key → Option Val) :
    (Viper.ofDocument get).readConfig (yamlText get)=.ok ⟨get,[]⟩ := if_pos rfl

theorem parse_yamlText {get : Key → Option Val}
    (h : (⟨get,[]⟩ : Settings).fieldErrors (Viper.ofDocument get)=[]) :
    parseYAMLConfig (Viper.ofDocument get) (yamlText get)=.ok (configOf get) := by
  simp only [parseYAMLConfig,readConfig_yamlText,Settings.unmarshal,h]
  rfl

def requiredKeys : Key → Option Val
  | .agentId => some (.str "a1")
  | .agentName => some (.str "agent one")
  | .executorAllowedCommands => some (.seq [.str "uptime"])
  | .authEnabled => some (.bool false)
  | .grpcServerAddr => some (.str "platform:443")
  | _ => none

def spelledOut (k : Key) : Option Val := (requiredKeys k).or k.default

/-- What a document has to set to be valid without the defaults. -/
def validKeys (k : Key) : Option Val :=
  (requiredKeys k).or (if [.agentIntervalSeconds,.serverListenAddr,.executorTimeoutSeconds,
    .executorMaxOutputBytes,.reporterMode,.reporterTimeoutSeconds,.grpcHeartbeatIntervalSeconds,
    .grpcReconnectInitialBackoffMs,.grpcReconnectMaxBackoffMs].contains k then k.default else none)

end OpsAgent
