import Kaede.Runs
import Kaede.Shared
import Kaede.SnowflakeId
import Kaede.WorkerLease
import Kaede.SnowflakeMint
import Kaede.LeaseProtocol
import Kaede.LeaseSafety
import Kaede.Relationship
import Kaede.FriendshipConsent
import Kaede.FriendshipAgreement
import Kaede.RoomOperation
import Kaede.RoomOperationSafety
import Kaede.Requests
import Kaede.Permissions
import Kaede.Guild
import Kaede.GuildRoles
import Kaede.RoleHierarchy
import Kaede.RoleOrder
import Kaede.GuildChannels
import Kaede.CategoryMoves
import Kaede.AccessInputs
import Kaede.ChannelEffects
import Kaede.AccessRekey
import Kaede.CallReplica
import Kaede.EncryptionPolicy
import Kaede.GroupConversation
import Kaede.VoiceConnection
import Kaede.VoiceFencing
import Kaede.CivilTime
import Kaede.RankedRows
import Kaede.Recurrence
import Kaede.RecurrenceSeries
import Kaede.TerminalRoom
import Kaede.TerminalRoomLedger
import Kaede.TrackerBoard
import Kaede.TrackerLayout
import Kaede.TrackerVersions
import Kaede.KeyPackageClaims
import Kaede.KeyPackageLedger
import Kaede.KeyPackageOnce
import Kaede.PermissionCache
import Kaede.PermissionReads
import Kaede.PermissionServing
import Kaede.DesktopAccess
import Kaede.DesktopIndex
import Kaede.DesktopOrder
import Kaede.Timeline
import Kaede.TimelineOrder
import Kaede.Outbox
import Kaede.OutboxDrain
import Kaede.OutboxOrder
import Kaede.ProfileConvergence
import Kaede.ConversationConvergence
import Kaede.GuildReplica
import Kaede.ReplicaPause
import Kaede.DmCache
import Kaede.DmHistory
import Kaede.DmReading
import Kaede.Expressions
import Kaede.Gateway
import Kaede.GatewayConn
import Kaede.GatewayResume
import Kaede.GuildConsent
import Kaede.GuildPages
import Kaede.GuildSequence
import Kaede.Inbox
import Kaede.Presence
import Kaede.RequestReplay
import Kaede.RateLimit
import Kaede.Masks
import Kaede.PermissionClosure
import Kaede.PermissionLayers
import Kaede.LinearSearch
import Kaede.RecurrenceSearch
import Kaede.RecurrenceOccurrences
import Kaede.PoolSort
import Kaede.Json
import Kaede.Utf8
import Kaede.JsonText
import Kaede.QueryString
import Kaede.JsonLimits
import Kaede.SigningBytes
import Kaede.JsonWalk
import Kaede.IsoTime
import Kaede.TrackerFields
import Kaede.TrackerSnapshot
import Kaede.TrackerFetch
import Kaede.TrackerTexts
import Kaede.TrackerPages
import Kaede.ChannelOrder
import Kaede.FederationRate
import Kaede.ReplayGaps
import Kaede.ThreadPages
import Kaede.AutoModPatterns
import Kaede.AutoModAllow
import Kaede.DmQuota
import Kaede.DesktopFailures
import Kaede.TrackerMirror
import Kaede.Base64url
import Kaede.TrackerFence
import Kaede.TrackerEndpoint
import Kaede.TrackerInvalidation
import Kaede.TrackerCoherence
import Kaede.AuthSessions
import Kaede.AuthSessionSafety
import Kaede.AuthRefresh
import Kaede.OneTimeTokens
import Kaede.TrackerFollow
