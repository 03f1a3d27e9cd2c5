import Ppb.Common.Trace
import Ppb.Common.Table
import Ppb.Common.Text
import Ppb.Common.Json
import Ppb.Common.KeyedQueue
import Ppb.Common.HeldTasks
import Ppb.Common.Prog
import Ppb.Common.SharedStore
import Ppb.Common.Service
import Ppb.Common.Told
import Ppb.Common.Lift
import Ppb.Common.Alone
import Ppb.Common.Histories
import Ppb.Common.JsonPath
import Ppb.Common.Yaml
import Ppb.Common.YamlPath
import Ppb.Common.JoinedPairs
import Ppb.Common.Transactions
import Ppb.Common.Replace
import Ppb.Common.Legible
import Ppb.Common.JsonText
import Ppb.Common.SlidingWindow
import Ppb.Common.Broadcast
import Ppb.Common.Octets
import Ppb.Common.ContentCoding
import Ppb.Common.Pages
import Ppb.Common.Csv
import Ppb.Common.JsonReader
import Ppb.Common.Serde
import Ppb.Common.Slices
import Ppb.Common.InPlace
import Ppb.Server.Error
import Ppb.Server.Types
import Ppb.Server.OpenUds
import Ppb.Server.World
import Ppb.Server.Sql
import Ppb.Auth.Permissions
import Ppb.Auth.Reauth
import Ppb.Auth.Jwt
import Ppb.Auth.Refresh
import Ppb.Auth.Sessions
import Ppb.Accounts.Store
import Ppb.Accounts.Routes
import Ppb.Accounts.Consent
import Ppb.Accounts.GithubState
import Ppb.Accounts.GithubBinding
import Ppb.Actions.Registry
import Ppb.Actions.Routes
import Ppb.Rooms.Routes
import Ppb.Automation.Routes
import Ppb.Actions.Entry
import Ppb.Actions.Questions
import Ppb.Actions.Executor
import Ppb.Actions.Gate
import Ppb.Actions.HostBranch
import Ppb.Commands.System
import Ppb.Commands.Broker
import Ppb.Jobs.Registry
import Ppb.Jobs.System
import Ppb.Jobs.Exclusion
import Ppb.Jobs.Cancel
import Ppb.Jobs.Orphans
import Ppb.Actions.RawCli
import Ppb.Actions.Target
import Ppb.Actions.QueueKey
import Ppb.Rooms.Batch
import Ppb.Rooms.HostMarker
import Ppb.Rooms.Normalization
import Ppb.Commands.Liveness
import Ppb.Commands.Runs
import Ppb.Commands.Redaction
import Ppb.Audit.Completeness
import Ppb.Groups.Store
import Ppb.Groups.Repo
import Ppb.Groups.Membership
import Ppb.Groups.Default
import Ppb.Groups.Effective
import Ppb.Groups.Replace
import Ppb.JoinIntents.Store
import Ppb.JoinIntents.Ops
import Ppb.JoinIntents.Index
import Ppb.JoinIntents.LifeCycle
import Ppb.Social.Store
import Ppb.Social.Ops
import Ppb.Social.Request
import Ppb.Social.Respond
import Ppb.Social.Blocks
import Ppb.Preferences.Routes
import Ppb.Preferences.Revisions
import Ppb.Middleware.Headers
import Ppb.Middleware.Auth
import Ppb.Auth.Logout
import Ppb.Auth.Gateway
import Ppb.Middleware.Csrf
import Ppb.Middleware.RateLimit
import Ppb.Replay.Store
import Ppb.Replay.Routes
import Ppb.Replay.Share
import Ppb.Replay.Pinning
import Ppb.Replay.Ownership
import Ppb.Replay.Listing
import Ppb.Replay.Viewer
import Ppb.Replay.Batches
import Ppb.Replay.Rounds
import Ppb.Events.Sse
import Ppb.Live.Routes
import Ppb.OpenUds.Client
import Ppb.OpenUds.Protocol
import Ppb.Phira.CacheKey
import Ppb.Phira.Gateway
import Ppb.Notifications.Push
import Ppb.Notifications.Actions
import Ppb.Pages.Endpoints
import Ppb.Pages.Offsets
import Ppb.Pages.Walk
import Ppb.Coupons.Store
import Ppb.Coupons.Routes
import Ppb.Coupons.Redeem
import Ppb.Admin.Store
import Ppb.Admin.Descriptor
import Ppb.Admin.Config
import Ppb.Admin.Save
import Ppb.Admin.FieldPermissions
import Ppb.Admin.MergeLaw
import Ppb.Admin.Recoverable
import Ppb.Admin.Secrets
import Ppb.Admin.ConcurrentSaves
import Ppb.Admin.Routes
import Ppb.Admin.Actors
import Ppb.Admin.Recipients
import Ppb.Admin.Unedited
import Ppb.Automation.Store
import Ppb.Automation.RunStatus
import Ppb.Automation.Cancel
import Ppb.Audit.Csv
import Ppb.Deployment.StartupArgs
import Ppb.Logs.Lines
import Ppb.Notifications.Endpoints
import Ppb.Phira.ChartBlob
import Ppb.Server.Overrides
import Ppb.Phira.Client
import Ppb.Phira.Load
import Ppb.Auth.Root
import Ppb.Events.Pipeline
import Ppb.Deployment.Environment
import Ppb.OpenUds.Reconnect
import Ppb.Notifications.Inbox
