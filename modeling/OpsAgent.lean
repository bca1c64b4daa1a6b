import OpsAgent.App.PlatformStream
import OpsAgent.Collector.AggregatorWindows
import OpsAgent.Collector.ChannelClose
import OpsAgent.Collector.ReloadFailure
import OpsAgent.Collector.ReloadProgress
import OpsAgent.Config.Reapply
import OpsAgent.Executor.Execute
import OpsAgent.Federation.ConfigHeap
import OpsAgent.Federation.Hub
import OpsAgent.Gateway.TunnelMessages
import OpsAgent.GrpcClient.Restart
import OpsAgent.GrpcClient.SendOverlap
import OpsAgent.GrpcClient.StateCallback
import OpsAgent.PluginRuntime.Disabled
import OpsAgent.PluginRuntime.ProcessLeak
import OpsAgent.PluginRuntime.Restarts
import OpsAgent.Sandbox.Output
import OpsAgent.Updater.Apply
import OpsAgent.Sandbox.Requests
import OpsAgent.Gateway.SshProxy
import OpsAgent.RustRuntime.ConnAnalyze
import OpsAgent.Gateway.Relay
import OpsAgent.PluginRuntime.Routing
import OpsAgent.Collector.DeltaTotals
import OpsAgent.Templates.Loader
import OpsAgent.PluginRuntime.Serving
import OpsAgent.Collector.AggregatedSeries
import OpsAgent.Collector.PrometheusText
import OpsAgent.Federation.Canary
import OpsAgent.Alerting.SeriesValues
import OpsAgent.Alerting.Webhooks
import OpsAgent.GrpcClient.Persist
import OpsAgent.Sandbox.TimeLimit
import OpsAgent.GrpcClient.Backoff
import OpsAgent.Collector.JournalMatches
import OpsAgent.App.BearerTokens
import OpsAgent.Config.Secrets
import OpsAgent.Server.RateLimit
import OpsAgent.Collector.SyslogMessages
import OpsAgent.Collector.Grok
import OpsAgent.Collector.TailGrowth
import OpsAgent.Marketplace.Installer
import OpsAgent.Checker.Sysctl
import OpsAgent.PluginRuntime.Environment
import OpsAgent.PluginRuntime.SdkChunks
import OpsAgent.Sandbox.Stats
import OpsAgent.RustRuntime.FsScan
import OpsAgent.RustRuntime.LocalProbe
import OpsAgent.Checker.SshConfig
import OpsAgent.PluginRuntime.Watcher
import OpsAgent.Discovery.Discover
import OpsAgent.App.SchedulerCalls
import OpsAgent.Tracing.Processor
