import Rapidly.Analytics.Events.Isolation
import Rapidly.Analytics.Events.Sorting
import Rapidly.Analytics.Events.Statistics
import Rapidly.Analytics.ExternalEvents.Delivery
import Rapidly.Analytics.Metrics.Zones
import Rapidly.Billing.PaymentMethods.DefaultCard
import Rapidly.Billing.PaymentMethods.StripeCustomer
import Rapidly.Catalog.Files.Completion
import Rapidly.Catalog.Files.Scanning
import Rapidly.Catalog.Shares.Updates
import Rapidly.Clients.Web.PrivateIp
import Rapidly.Core.Pagination
import Rapidly.Core.Queries.EscapeLike
import Rapidly.Core.RateLimit.ClientIp
import Rapidly.Core.RateLimit.InMemory
import Rapidly.Customers.ShortIds
import Rapidly.Customers.Update
import Rapidly.FileSharing.Channels.Destruction
import Rapidly.FileSharing.Channels.DownloadLimit
import Rapidly.FileSharing.Channels.Endpoints
import Rapidly.FileSharing.Channels.PasswordAttempts
import Rapidly.FileSharing.Channels.Renewal
import Rapidly.FileSharing.Channels.Teardown
import Rapidly.FileSharing.Downloader.Names
import Rapidly.FileSharing.KeyDerivation
import Rapidly.FileSharing.Payments.IndexCompleteness
import Rapidly.FileSharing.Payments.OneTimeItems
import Rapidly.FileSharing.Payments.RepeatedCheckouts
import Rapidly.FileSharing.Payments.StripeEvents
import Rapidly.FileSharing.Relay.Budget
import Rapidly.FileSharing.Relay.WebSocketRelay
import Rapidly.FileSharing.Routes
import Rapidly.FileSharing.Sessions.Finality
import Rapidly.FileSharing.Signaling.CloseRoom
import Rapidly.FileSharing.Signaling.Isolation
import Rapidly.FileSharing.Signaling.RoomCoherence
import Rapidly.FileSharing.Slugs
import Rapidly.FileSharing.Stats.Freshness
import Rapidly.FileSharing.Stats.Seeding
import Rapidly.FileSharing.StreamedDigest
import Rapidly.FileSharing.Transfer.EndToEnd
import Rapidly.FileSharing.Uploader.PasswordGate
import Rapidly.FileSharing.Uploader.RejectedStart
import Rapidly.FileSharing.Uploader.SharedLockout
import Rapidly.FileSharing.ZipStream.Bookkeeping
import Rapidly.FileSharing.ZipStream.Checks
import Rapidly.Identity.Auth.LivePrincipals
import Rapidly.Identity.Auth.TokenStatus
import Rapidly.Identity.LoginCodes.Redemption
import Rapidly.Identity.Members.Creation
import Rapidly.Identity.Members.Deduplication
import Rapidly.Identity.Members.SingleOwner
import Rapidly.Identity.OAuth2.Redemption
import Rapidly.Identity.OAuthState.Callback
import Rapidly.Integrations.ProviderTokens
import Rapidly.Integrations.S3.Filename
import Rapidly.Messaging.Webhooks.Ordering
import Rapidly.Messaging.Webhooks.Recorded
import Rapidly.Observability.RemoteWrite
import Rapidly.P2p.FrameSize
import Rapidly.P2p.MeshMembers
import Rapidly.P2p.Reassembly
import Rapidly.Platform.Users.Deletion
import Rapidly.Platform.Users.IdentityVerification
import Rapidly.Platform.Users.SignInMethods
import Rapidly.Platform.WorkspaceAccessTokens.Retention
import Rapidly.Platform.Workspaces.AccountStatus
import Rapidly.Platform.Workspaces.Deletion
import Rapidly.Platform.Workspaces.Membership
import Rapidly.Projects.Forests
import Rapidly.Projects.Numbering
import Rapidly.Projects.References
import Rapidly.Projects.Replacement
import Rapidly.Worker.BulkDelays
import Rapidly.Worker.JobQueue
import Rapidly.Worker.NoLostUpdate
