import ServerCentral.Oidc.Resets
import ServerCentral.Oidc.DeviceTypo
import ServerCentral.Oidc.DeviceProtocol
import ServerCentral.Auth.Accounts
import ServerCentral.Persistence
import ServerCentral.Agent.RequestSafety
import ServerCentral.Agent.UploadSafety
import ServerCentral.Http.PartSafety
import ServerCentral.Http.FormData
import ServerCentral.Fleet
import ServerCentral.Proxy.Apply
import ServerCentral.Proxy.AliasValid
import ServerCentral.Compose.ShownPorts
import ServerCentral.Agent.Stun
import ServerCentral.Oidc.RefreshListing
import ServerCentral.Oidc.SpentCredentials
import ServerCentral.Oidc.AppRegistry
import ServerCentral.Compose.StackSafety
import ServerCentral.Auth.GateSafety
import ServerCentral.Oidc.AppLinks
import ServerCentral.Oidc.AppNames
import ServerCentral.Oidc.RegistrationSafety
import ServerCentral.Oidc.RoleReferences
import ServerCentral.Backends.OptionSafety
import ServerCentral.Backends.VdevGrammar
import ServerCentral.Tasks.StoreSafety
import ServerCentral.Tasks.LogView
import ServerCentral.Tasks.Gate
import ServerCentral.Auth.ThrottleSafety
import ServerCentral.Auth.AdminFrame
import ServerCentral.Auth.Startup
import ServerCentral.Settings.Updates
import ServerCentral.Agent.Enrolment
import ServerCentral.Agent.AgentUpdateSafety
import ServerCentral.Terminal.Privilege
import ServerCentral.Terminal.SessionSafety
import ServerCentral.Files.BatchKept
import ServerCentral.Agent.UploadAtomic
import ServerCentral.Files.UploadCut
import ServerCentral.Http.Chunking
import ServerCentral.Backends.NewDevices
import ServerCentral.ClientIp.Resolution
import ServerCentral.Backends.Systemd
import ServerCentral.Http.Cors
import ServerCentral.Host.SameEffect
import ServerCentral.Host.ResolveSafety
import ServerCentral.Backends.DockerLogs
import ServerCentral.Auth.Patterns
import ServerCentral.Compose.ServiceNetworks
import ServerCentral.Compose.VolumeRows
import ServerCentral.Compose.EnvRows
import ServerCentral.Compose.DeviceRows
import ServerCentral.Compose.StackPaths
import ServerCentral.Web.Routes
import ServerCentral.Web.Ansi
import ServerCentral.Agent.ExecLines
import ServerCentral.ClientIp.TextForm
import ServerCentral.Tasks.LifecycleSafety
import ServerCentral.Binaries.StoreSafety
import ServerCentral.Tasks.LiveWaits
import ServerCentral.Dashboard.FleetSummarySafety
import ServerCentral.Web.HostPollAnswers
