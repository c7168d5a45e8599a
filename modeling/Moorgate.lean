import Moorgate.Audit.Tamper
import Moorgate.Krl.Distribution
import Moorgate.Cluster.Liveness
import Moorgate.Vault.Rekey
import Moorgate.Approvals.JustInTime
import Moorgate.Vault.Checkout
import Moorgate.Scheduler.Engine
import Moorgate.Livesessions.Bridge
import Moorgate.Admin.LastSuper
import Moorgate.Credinject.Resolve
import Moorgate.Serviceaccounts.Tokens
import Moorgate.Auth.Provision
import Moorgate.Jobs.Launch
import Moorgate.Auth.SamlReplay
import Moorgate.Rdp.Desktops
import Moorgate.Rdp.Recordings
import Moorgate.Identity.Cluster
import Moorgate.Sshgw.HostKeys
import Moorgate.Federation.Revoke
import Moorgate.Federation.Rotation
import Moorgate.Federation.Proxy
import Moorgate.Federation.Assertions
import Moorgate.Terminal.Entries
import Moorgate.Auditfwd.Forwarder
import Moorgate.Auth.ForcedChange
import Moorgate.Identity.Tiers
import Moorgate.Enrollment.JumpPeers
import Moorgate.Audit.Canonical
import Moorgate.Store.VaultAccess
import Moorgate.Vault.RotationPaths
import Moorgate.Recorder.ShortWrites
import Moorgate.Cmdindex.Batches
import Moorgate.Cmdindex.Judged
import Moorgate.Api.RealIp
import Moorgate.Store.Overlay
import Moorgate.Scheduler.Planning
import Moorgate.Scim.Patches
import Moorgate.Updater.Status
import Moorgate.Upgrade.Staging
import Moorgate.Release.Channel
import Moorgate.Aiaction.HostTags
import Moorgate.Upgrade.Service
import Moorgate.Jobs.ExitCode
import Moorgate.Monitor.Confirm
import Moorgate.Auth.SamlRelay
import Moorgate.Jobs.Slots
import Moorgate.Livesessions.Watchers
import Moorgate.Federation.ReadModel
import Moorgate.Ssrf.Dialing
import Moorgate.Store.CommandSearch
import Moorgate.Msrc.Import
