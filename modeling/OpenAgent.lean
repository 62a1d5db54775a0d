import OpenAgent.Gateway.Capabilities.Targeting
import OpenAgent.Gateway.Capabilities.Dispatch
import OpenAgent.Gateway.Capabilities.Epochs
import OpenAgent.Gateway.Capabilities.Custody
import OpenAgent.Gateway.ArtifactRoundTrip
import OpenAgent.Gateway.Collaboration.Coalescing
import OpenAgent.Gateway.Collaboration.Delivery
import OpenAgent.Gateway.Collaboration.ReportedStops
import OpenAgent.Runtime.StreamDelivery
import OpenAgent.Gateway.WebhookLimiter
import OpenAgent.HostTools.ConnectionCleanup
import OpenAgent.HostTools.LocalClientSettlement
import OpenAgent.Dashboards.LifetimeOrder
import OpenAgent.Dashboards.StatusDelivery
import OpenAgent.Dashboards.FrozenRows
import OpenAgent.Dashboards.RevisionInstall
import OpenAgent.GrantChanges
import OpenAgent.Identity.Revocation
import OpenAgent.Identity.SharedConnection
import OpenAgent.Identity.AgentDirectory
import OpenAgent.Identity.Auth.Watch
import OpenAgent.HostTools.SafeCalls
import OpenAgent.Desktop.SocketIsolation
import OpenAgent.Dashboards.ActionRunOrder
import OpenAgent.Channels.Conversation
import OpenAgent.Channels.HostedSlackDeliveries
import OpenAgent.Server.BootGuard
import OpenAgent.Server.SelfUpdateSafety
import OpenAgent.Channels.LiveNarration
import OpenAgent.Channels.HistoryBudgets
import OpenAgent.Channels.HistoryBytes
import OpenAgent.Channels.OwnedMedia
import OpenAgent.Channels.StdioSettlement
import OpenAgent.Channels.AnsweredTurns
import OpenAgent.Channels.BridgeRestarts
import OpenAgent.Gateway.SessionQueueOrder
import OpenAgent.Gateway.TerminalOwners
import OpenAgent.Runtime.AccessChecks
import OpenAgent.Automation.OneShots
import OpenAgent.Gateway.Operational.LinkDisclosure
import OpenAgent.Gateway.Operational.SnapshotWalks
import OpenAgent.Desktop.KillSwitch
import OpenAgent.Desktop.RememberedCredentials
import OpenAgent.McpApps.SessionRuns
import OpenAgent.McpApps.HostRuns
import OpenAgent.Desktop.HostLaunches
import OpenAgent.Identity.NetworksSurvival
import OpenAgent.Gateway.Collaboration.AcceptedSnapshots
import OpenAgent.App.CardPhases
import OpenAgent.App.SearchRuns
import OpenAgent.App.ViewRevisions
import OpenAgent.Channels.CommandResults
import OpenAgent.Dashboards.Checkpoints
import OpenAgent.HostTools.StdinLines
import OpenAgent.Gateway.Capabilities.ArtifactDesk
import OpenAgent.Dashboards.BundleDigests
import OpenAgent.Dashboards.SubscriptionRuns
import OpenAgent.Dashboards.SourceHistory
import OpenAgent.Server.ReleaseSelection
import OpenAgent.Channels.TypingLeases
