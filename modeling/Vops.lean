import Vops.AgentApi.PlanIdThms
import Vops.AgentApi.StableText
import Vops.AgentApi.VopsAgentApi
import Vops.AgentControl.ActionBroker
import Vops.AgentControl.AgentModel
import Vops.AgentControl.AgentSessionManager
import Vops.AgentControl.AgentStore
import Vops.AgentControl.ApprovalManager
import Vops.AgentControl.AuditEvent
import Vops.AgentControl.BudgetThms
import Vops.AgentControl.CapabilityRegistry
import Vops.AgentControl.CoreActionExecutor
import Vops.AgentControl.DecideThms
import Vops.AgentControl.Digest
import Vops.AgentControl.EventPages
import Vops.AgentControl.ExecutorThms
import Vops.AgentControl.NarrowThms
import Vops.AgentControl.OperationManager
import Vops.AgentControl.PlanEngine
import Vops.AgentControl.PlanHashThms
import Vops.AgentControl.PolicyEngine
import Vops.AgentControl.ProgressThms
import Vops.AgentControl.Redaction
import Vops.AgentControl.RedactionThms
import Vops.AgentControl.RedactionWalk
import Vops.AgentControl.RevokeThms
import Vops.AgentControl.SessionCalls
import Vops.AgentControl.TamperThms
import Vops.AgentControl.TargetThms
import Vops.AgentControl.UpdateThms
import Vops.Apps.AccessThms
import Vops.Apps.AppOps
import Vops.Apps.AppPlan
import Vops.Apps.AppRollback
import Vops.Apps.AppRuns
import Vops.Apps.AppScripts
import Vops.Apps.ApplicationNormalize
import Vops.Apps.AppsWorld
import Vops.Apps.BindThms
import Vops.Apps.CaddyScripts
import Vops.Apps.CaddyThms
import Vops.Apps.DataGuardThms
import Vops.Apps.DeployDecision
import Vops.Apps.EnsureThms
import Vops.Apps.GateThms
import Vops.Apps.IngressRender
import Vops.Apps.InputThms
import Vops.Apps.InstallLedger
import Vops.Apps.KeptGateThms
import Vops.Apps.LedgerThms
import Vops.Apps.NameThms
import Vops.Apps.OverrideThms
import Vops.Apps.PortThms
import Vops.Apps.QuadletRender
import Vops.Apps.ReferenceThms
import Vops.Apps.RollbackThms
import Vops.Apps.RouteNameThms
import Vops.Apps.ScriptThms
import Vops.Apps.SecretThms
import Vops.Apps.SpecNormalize
import Vops.Apps.StartOrderThms
import Vops.Apps.TemplateTokens
import Vops.Apps.UnitWriteThms
import Vops.Apps.VopsApps
import Vops.Apps.VopsIngress
import Vops.Apps.ZoneThms
import Vops.Backup.BackupThms
import Vops.Bench.BenchThms
import Vops.Catalog.CompareThms
import Vops.Catalog.TwinThms
import Vops.Catalog.VirtualTwins
import Vops.Firewall.FirewallServices
import Vops.Firewall.Nftables
import Vops.Firewall.NftablesThms
import Vops.Firewall.PortReaderThms
import Vops.Firewall.ServiceRules
import Vops.HostOps.AuthorizedKeys
import Vops.HostOps.CrontabThms
import Vops.HostOps.ForeignKeys
import Vops.HostOps.NeverStranded
import Vops.HostOps.OpsLine
import Vops.HostOps.OpsLineThms
import Vops.HostOps.RevokeThms
import Vops.HostOps.StatusBattery
import Vops.HostOps.VopsHostKeys
import Vops.Keyring.KeyringServer
import Vops.Keyring.LockThms
import Vops.Keyring.MoveThms
import Vops.Keyring.ProfileStore
import Vops.Keyring.ThrottleThms
import Vops.Keyring.Unlock
import Vops.Keyring.UnlockThms
import Vops.Keyring.VaultStore
import Vops.Lib.Async
import Vops.Lib.AsyncEnds
import Vops.Lib.AsyncInterp
import Vops.Lib.AsyncRuns
import Vops.Lib.AsyncSafe
import Vops.Lib.AsyncTriple
import Vops.Lib.Base64
import Vops.Lib.Cidr
import Vops.Lib.CommandPrompt
import Vops.Lib.Documents
import Vops.Lib.GroupOn
import Vops.Lib.HashChain
import Vops.Lib.Interleave
import Vops.Lib.Json
import Vops.Lib.JsonCode
import Vops.Lib.JsonRead
import Vops.Lib.JsonText
import Vops.Lib.KeysetPages
import Vops.Lib.LengthPrefixed
import Vops.Lib.Lowest
import Vops.Lib.Nft
import Vops.Lib.Numerals
import Vops.Lib.PosixPath
import Vops.Lib.Rewrite
import Vops.Lib.Rounds
import Vops.Lib.Separated
import Vops.Lib.Sessions
import Vops.Lib.Shell
import Vops.Lib.ShellWords
import Vops.Lib.Table
import Vops.Lib.TextLines
import Vops.Lib.TextSearch
import Vops.Lib.Tokens
import Vops.Lib.UnitFile
import Vops.Lib.Utf8
import Vops.Lib.Window
import Vops.Lib.Words
import Vops.Lib.Xml
import Vops.Metrics.CollectorThms
import Vops.Remote.ChatTurns
import Vops.Remote.CommandOnceThms
import Vops.Remote.CommandRuns
import Vops.Remote.ConversationService
import Vops.Remote.ConversationThms
import Vops.Remote.DeviceRegistry
import Vops.Remote.DispatchThms
import Vops.Remote.GrantThms
import Vops.Remote.IntentRuns
import Vops.Remote.IntentService
import Vops.Remote.IntentThms
import Vops.Remote.IntentWatch
import Vops.Remote.OpenAICompatibleAgent
import Vops.Remote.OutboundSequence
import Vops.Remote.OutcomeThms
import Vops.Remote.RegistryThms
import Vops.Remote.RemoteAgentTools
import Vops.Remote.RemoteChatStream
import Vops.Remote.RemoteCommandHandler
import Vops.Remote.RemoteFrames
import Vops.Remote.RemoteGateway
import Vops.Remote.RemoteSync
import Vops.Remote.RemoteWorld
import Vops.Remote.RepairThms
import Vops.Remote.ReplayThms
import Vops.Remote.RouterThms
import Vops.Remote.SyncThms
import Vops.Remote.ToolThms
import Vops.Remote.TurnEnds
import Vops.Remote.WatchThms
import Vops.Servers.KnownHostsThms
import Vops.Servers.VopsServers
import Vops.Service.ServiceThms
import Vops.Service.ServiceUnits
import Vops.SshKeys.PublicKeyThms
import Vops.SshKeys.VopsSshKeys
import Vops.Store.HistoryThms
import Vops.Store.InstallMigration
import Vops.Store.MigrationThms
import Vops.Store.OpeningThms
import Vops.World
