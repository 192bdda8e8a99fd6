import SentinelCommand.Lib.Run
import SentinelCommand.License.Revocation
import SentinelCommand.Notifications.DigestCoverage
import SentinelCommand.Sync.Settling
import SentinelCommand.Json
import SentinelCommand.Mcp.Scope
import SentinelCommand.Mcp.Auth
import SentinelCommand.Mcp.CallTool
import SentinelCommand.Text
import SentinelCommand.Plans.CameraCap
import SentinelCommand.Lib.Faults
import SentinelCommand.Hls.AuthFreshness
import SentinelCommand.Hls.DeletionSafety
import SentinelCommand.Webhooks.Clerk
import SentinelCommand.Webhooks.ClerkBranches
import SentinelCommand.Webhooks.ClerkEffects
import SentinelCommand.Webhooks.Resend
import SentinelCommand.Webhooks.Processed
import SentinelCommand.Privacy.Completeness
import SentinelCommand.Gdpr.OrgErasure
import SentinelCommand.Plans.CacheFreshness
import SentinelCommand.Plans.PlanKept
import SentinelCommand.Plans.GraceKept
import SentinelCommand.Sentinel.RunLifecycle
import SentinelCommand.Hls.StaleSweep
import SentinelCommand.Hls.AuthSiteRules
import SentinelCommand.Hls.ViewerErasure
import SentinelCommand.Email.Suppression
import SentinelCommand.Email.Discipline
import SentinelCommand.Sentinel.DispatchCaps
import SentinelCommand.Account.Stranding
import SentinelCommand.Ws.CommandChannel
import SentinelCommand.Lib.Fanout
import SentinelCommand.Sse.LiveFeed
import SentinelCommand.Incidents.Resolution
import SentinelCommand.Incidents.DailyRail
import SentinelCommand.Incidents.Patches
import SentinelCommand.Recording.Modes
import SentinelCommand.Settings.Register
import SentinelCommand.Heartbeat.Reports
import SentinelCommand.Heartbeat.Agreement
import SentinelCommand.Heartbeat.Announcements
import SentinelCommand.Sync.Mirror
import SentinelCommand.Lib.Upsert
import SentinelCommand.Lib.CallLog
import SentinelCommand.Lib.Window
import SentinelCommand.Lib.Machine
import SentinelCommand.Restore.RestoreTable
import SentinelCommand.Restore.Frame
import SentinelCommand.Restore.Sequences
import SentinelCommand.Auth.Jwks
import SentinelCommand.Auth.SigningKeys
import SentinelCommand.Incidents.FinalReport
import SentinelCommand.Notifications.Recipients
import SentinelCommand.Notifications.ReadState
import SentinelCommand.Agent.Drain
import SentinelCommand.Privacy.Backstop
import SentinelCommand.Agent.DrainBounds
import SentinelCommand.Agent.Fairness
import SentinelCommand.Agent.Wakeups
import SentinelCommand.Agent.Attempt
import SentinelCommand.Agent.Severity
import SentinelCommand.Heartbeat.Displayed
import SentinelCommand.Incidents.ToolUpdates
import SentinelCommand.Incidents.ToolIds
import SentinelCommand.Hls.PushedLive
import SentinelCommand.Nodes.NodeCap
import SentinelCommand.Nodes.Register
import SentinelCommand.Nodes.RegisterRoom
import SentinelCommand.Nodes.Versions
import SentinelCommand.Agent.Messages
import SentinelCommand.Agent.History
import SentinelCommand.Plans.LiveLookups
import SentinelCommand.Plans.LookupSafety
import SentinelCommand.Plans.EntitledItems
import SentinelCommand.Mcp.RateLimiter
import SentinelCommand.Ws.NodeLimiter
import SentinelCommand.Ws.MessageBudget
import SentinelCommand.Mcp.PreAuth
import SentinelCommand.Mcp.Activity
import SentinelCommand.RateLimit.Memory
import SentinelCommand.RateLimit.Redis
import SentinelCommand.Notifications.CooldownArithmetic
import SentinelCommand.Webhooks.Svix
import SentinelCommand.Auth.Claims
import SentinelCommand.Sentinel.CompleteRequest
import SentinelCommand.Agent.Delivery
import SentinelCommand.Sentinel.Recorded
import SentinelCommand.Lib.TransactionRules
import SentinelCommand.Auth.SessionCookie
import SentinelCommand.ZoneInfo.Keys
import SentinelCommand.PyInt.Builtin
import SentinelCommand.PyInt.Acceptance
import SentinelCommand.Query.BoundedInt
import SentinelCommand.Crypto.Base64
import SentinelCommand.Crypto.Base64Rules
import SentinelCommand.Json.Reader
import SentinelCommand.Lib.Utf16
import SentinelCommand.Audit.PythonJson
import SentinelCommand.Crypto.Compact
import SentinelCommand.Email.UnsubscribeToken
import SentinelCommand.Lib.JsonGrammar
import SentinelCommand.Json.PyDecoder
import SentinelCommand.Json.PyScanner
import SentinelCommand.Json.PyNumber
import SentinelCommand.Json.PyAcceptance
import SentinelCommand.Chrono
import SentinelCommand.PyDatetime.IsoFormat
import SentinelCommand.PyDatetime.IsoSafety
import SentinelCommand.Lib.Gregorian
import SentinelCommand.Lib.Panics
import SentinelCommand.PyDatetime.IsoRoundTrip
import SentinelCommand.Lib.Utf8
import SentinelCommand.PyCodec
import SentinelCommand.Query.JsonBody
import SentinelCommand.Gdpr.EvidencePath
import SentinelCommand.Lib.Regex
import SentinelCommand.Hls.PlaylistRewrite
import SentinelCommand.Lib.Csv
import SentinelCommand.Audit.CsvExport
import SentinelCommand.Sentinel.TraceBounds
import SentinelCommand.Agent.RepairArguments
import SentinelCommand.Json.Place
import SentinelCommand.Mcp.Keys
import SentinelCommand.Lib.Like
import SentinelCommand.Audit.LogFilter
