import ArmstrongBot.Api.Cookies
import ArmstrongBot.Api.Jwt
import ArmstrongBot.Api.KeyLifecycle
import ArmstrongBot.Api.KeyScopes
import ArmstrongBot.Api.Realtime
import ArmstrongBot.Api.ResponseCache
import ArmstrongBot.Api.WebhookIngress
import ArmstrongBot.Audit.ArchiveSafety
import ArmstrongBot.Audit.ConcurrentAppends
import ArmstrongBot.Audit.Export
import ArmstrongBot.Audit.Ingest
import ArmstrongBot.Audit.Integrity
import ArmstrongBot.Audit.Iteration
import ArmstrongBot.Audit.Numbering
import ArmstrongBot.Audit.Query
import ArmstrongBot.Audit.Redaction
import ArmstrongBot.Audit.SweepRace
import ArmstrongBot.Audit.TamperEvidence
import ArmstrongBot.Bot.GuildRegistry
import ArmstrongBot.Cache.Invalidation
import ArmstrongBot.Cache.Prefixes
import ArmstrongBot.Cache.SingleFlight
import ArmstrongBot.Dashboard.GuildAccess
import ArmstrongBot.Dashboard.Tickets
import ArmstrongBot.Events.AsyncJob
import ArmstrongBot.Events.DeadLetters
import ArmstrongBot.Events.Delivery
import ArmstrongBot.Events.Duplicates
import ArmstrongBot.Events.Idempotency
import ArmstrongBot.Events.Replay
import ArmstrongBot.I18n.Coherence
import ArmstrongBot.I18n.Lookup
import ArmstrongBot.I18n.Overrides
import ArmstrongBot.Library.Base64
import ArmstrongBot.Library.CookieJar
import ArmstrongBot.Library.IsoDate
import ArmstrongBot.Library.OffsetPaging
import ArmstrongBot.Library.Ownership
import ArmstrongBot.Metrics.ScrapeAllowlist
import ArmstrongBot.Metrics.SnapshotReads
import ArmstrongBot.Metrics.SnapshotTotals
import ArmstrongBot.Modules.Registry
import ArmstrongBot.Notifications.Addresses
import ArmstrongBot.Notifications.FanOut
import ArmstrongBot.Notifications.FinalStatus
import ArmstrongBot.Notifications.Idempotency
import ArmstrongBot.Notifications.Preferences
import ArmstrongBot.Permissions.ClaimOrder
import ArmstrongBot.Permissions.DepthLimit
import ArmstrongBot.Permissions.Invalidation
import ArmstrongBot.Permissions.StoredGrants
import ArmstrongBot.Plugins.HookOrder
import ArmstrongBot.Plugins.Installation
import ArmstrongBot.Plugins.Recovery
import ArmstrongBot.Plugins.Subscriptions
import ArmstrongBot.Scheduler.Bookkeeping
import ArmstrongBot.Scheduler.JobIds
import ArmstrongBot.Scheduler.Maintenance
import ArmstrongBot.Scheduler.Stopping
import ArmstrongBot.Security.Encryption
import ArmstrongBot.Security.Redaction
import ArmstrongBot.Security.Sanitizer
import ArmstrongBot.Security.TurnRuns
import ArmstrongBot.Sessions.OAuthLogin
import ArmstrongBot.Sessions.Revocation
import ArmstrongBot.Settings.Updates
import ArmstrongBot.Storage.GarbageCollection
import ArmstrongBot.Storage.Isolation
import ArmstrongBot.Storage.LocalPaths
import ArmstrongBot.Storage.Paging
import ArmstrongBot.Storage.References
import ArmstrongBot.Storage.SignedLinks
import ArmstrongBot.Storage.Usage
import ArmstrongBot.Webhooks.AtMostOnce
import ArmstrongBot.Webhooks.DeliveryRuns
import ArmstrongBot.Webhooks.FilterValues
import ArmstrongBot.Webhooks.GuildIsolation
import ArmstrongBot.Webhooks.NoLoss
import ArmstrongBot.Webhooks.Normalizers
import ArmstrongBot.Webhooks.Replays
import ArmstrongBot.Webhooks.SignedDeliveries
import ArmstrongBot.Webhooks.StripeSignatures
import ArmstrongBot.Webhooks.TokenRevocation
