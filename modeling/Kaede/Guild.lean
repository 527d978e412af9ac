import Kaede.Permissions
import Kaede.Requests
import Kaede.RoomOperation

/-!
# A guild at its home server

The rows of one guild (`backend/app/db/models.py`) and the two functions
everything else goes through: `calculate_permissions` of
`backend/app/chat/permissions.py`, which reads almost all of them, and
`queue_guild_mutation` of `backend/app/chat/guild_revision.py`, which pauses
the guild's encrypted channels for the event types that change access.

Every row belongs to the one guild, so role and channel references are
bare ids (their domain is the guild's, by the `origin_matches_guild`
constraints) and the source's comparisons of guild ids are dropped. Times
are microseconds.
-/

namespace Kaede

open Permission

inductive AccountType where
  | human
  | bot
deriving DecidableEq, Repr

structure User where
  ref : UserRef
  accountType : AccountType
  disabled : Bool
deriving DecidableEq, Repr

structure Role where
  id : Nat
  name : String
  permissions : Nat
  color : Nat
  position : Nat
  hoist : Bool
  managed : Bool
  mentionable : Bool
  updatedAt : Nat
deriving DecidableEq, Repr

/-! ## Onboarding -/

structure OnboardingOption where
  id : Nat
  roleIds : List Nat
  channelIds : List Nat
deriving DecidableEq, Repr

structure OnboardingQuestion where
  id : Nat
  required : Bool
  multiple : Bool
  beforeJoin : Bool
  options : List OnboardingOption
deriving DecidableEq, Repr

structure GuideItem where
  id : Nat
  channelId : Option Nat
  task : Bool
deriving DecidableEq, Repr

structure OnboardingConfig where
  enabled : Bool
  revision : Nat
  rulesRevision : Nat
  rules : List String
  defaultChannelIds : List Nat
  questions : List OnboardingQuestion
  guide : List GuideItem
deriving DecidableEq, Repr

/-- The part of `onboarding_state` that is read back: `rules_revision` is
missing until the member has completed onboarding. -/
structure OnboardingState where
  rulesRevision : Option Nat
  grantedRoleIds : List Nat
deriving DecidableEq, Repr

def needsRules (config : OnboardingConfig) (state : OnboardingState) : Bool :=
  config.enabled && !config.rules.isEmpty && state.rulesRevision ≠ some config.rulesRevision

/-! ## Members, channels, overwrites -/

structure GuildMember where
  user : UserRef
  memberVersion : Nat
  temporary : Bool
  timeoutUntil : Option Nat
  timeoutIndefinite : Bool
  onboardingState : OnboardingState
deriving DecidableEq, Repr

namespace GuildMember

def timedOut (m : GuildMember) (now : Nat) : Bool :=
  m.timeoutIndefinite || m.timeoutUntil.any (now < ·)

end GuildMember

/-- Channel columns that a channel update writes and no access decision
reads. -/
inductive ChannelField where
  | name
  | topic
  | nsfw
  | rateLimitPerUser
  | bitrate
  | userLimit
  | rtcRegion
  | videoQualityMode
  | federatedHistoryPolicy
  | availableTags
  | defaultReactionEmoji
  | defaultAutoArchiveDuration
  | defaultThreadRateLimitPerUser
  | defaultSortOrder
  | defaultForumLayout
  | e2eeRequired
deriving DecidableEq, Repr

structure Channel where
  id : Nat
  type : ChannelType
  unavailable : Bool := false
  position : Nat := 0
  parentId : Option Nat := none
  permissionsSynced : Bool := false
  flags : Nat := 0
  settings : List (ChannelField × Nat) := []
  threadOwner : Option UserRef := none
  archived : Bool := false
  invitable : Bool := false
  memberCount : Nat := 0
  encryptionMode : EncryptionMode := .plaintext
  encryptionState : EncryptionState := .plaintext
  updatedAt : Nat := 0
deriving DecidableEq, Repr

namespace Channel

def setting (c : Channel) (field : ChannelField) : Nat :=
  ((c.settings.find? fun s => s.1 = field).map Prod.snd).getD 0

/-- End-to-end encrypted with keys in use. -/
def e2eeActive (c : Channel) : Bool := c.encryptionMode = .e2ee && c.encryptionState = .active

/-- `encryption_state = 'rekeying'` for a channel whose keys are in use. -/
def pause (c : Channel) : Channel :=
  if c.e2eeActive then { c with encryptionState := .rekeying } else c

end Channel

structure ChannelOverwrite where
  channelId : Nat
  overwrite : PermissionOverwrite
deriving DecidableEq, Repr

/-- An active installation of a bot in this guild. -/
structure BotInstallation where
  id : Nat
  bot : UserRef
  channelRestrictions : List Nat
deriving DecidableEq, Repr

/-- The guild row. -/
structure GuildRow where
  id : Nat
  domain : String
  owner : UserRef
  permissionGeneration : Nat
  onboarding : OnboardingConfig
deriving DecidableEq, Repr

/-- The guild row and the tables that refer to it. -/
structure Guild extends GuildRow where
  roles : List Role
  members : List GuildMember
  memberRoles : List (UserRef × Nat)
  channels : List Channel
  overwrites : List ChannelOverwrite
  threadMembers : List (Nat × UserRef)
  installations : List BotInstallation
deriving DecidableEq, Repr

inductive GuildError where
  | guildNotFound
  | channelNotFound
  | channelParentInvalid
  | missingPermissions (needed : Nat)
  | settingsVersionRequired (current : Nat)
  | settingsVersionConflict (current : Nat)
  | memberNotFound
  | roleNotFound
  | ownerImmune
  | cannotManageSelf
  | roleHierarchy
  | managedRoleImmutable
  | everyoneRoleImmutable
  | everyoneRoleImplicit
  | cannotGrantPermissions
  | cannotManagePermissions
  | rolePositionBatchRequired
  | roleOrderIncomplete
  | roleOrderNotContiguous
  | roleStateChanged
  | threadOverwritesUnsupported
  | useThreadEndpoint
  | invalidChannelParent
  | parentNotCategory
  | channelHasNoCategory
  | channelSetChanged
  | channelPositionInvalid
  | channelParentBatchLimit
  | voiceFieldsVoiceOnly
  | forumFieldsForumOnly
  | forumE2eeRequirementIrreversible
  | e2eeActivationDisabled
  | threadDefaultChannelTypeInvalid
  | channelSettingsInvalid
  | channelNotEmpty
  | channelHasAnnouncementDependencies
  | channelNotDeletable
  | botNotInstalled
  | botChannelRestricted
  | threadNotFound
  | missingThreadPermissions
  | interactionsBlocked
  | userNotFound
  | memberExists
  | threadArchived
  | threadMemberPreferencesSelfOnly
  | threadMemberParentHidden
  | threadParentInvalid
  | threadMemberLimit
  | guildMemberNotFound
  | onboardingChanged
  | onboardingDisabled
  | onboardingInvalidAnswer
  | onboardingInvalidTask
  | onboardingInvalidRole
  | onboardingInvalidChannel
  | rulesAcceptanceRequired
  | valueError
  | integrityError
deriving DecidableEq, Repr

namespace Guild

def channel? (g : Guild) (id : Nat) : Option Channel := lookupBy Channel.id id g.channels

def role? (g : Guild) (id : Nat) : Option Role := lookupBy Role.id id g.roles

def member? (g : Guild) (user : UserRef) : Option GuildMember :=
  lookupBy GuildMember.user user g.members

/-- `member_roles`: @everyone, whose id is the guild's, and the roles the
user holds. -/
def rolesOf (g : Guild) (user : UserRef) : List Role :=
  g.roles.filter fun r => r.id = g.id ∨ (user, r.id) ∈ g.memberRoles

/-- The overwrites stored for a channel itself. -/
def ownOverwrites (g : Guild) (channel : Nat) : List PermissionOverwrite :=
  (g.overwrites.filter fun o => o.channelId = channel).map ChannelOverwrite.overwrite

end Guild

/-! ## Bot installations -/

structure BotGuildPermissionGrant where
  installationId : Option Nat
  channelRestrictions : List Nat
deriving DecidableEq, Repr

namespace Guild

/-- `channel_restrictions_allow`: the channel, its parent, or the category
of a thread's parent is named. -/
def channelRestrictionsAllow (g : Guild) (restrictions : List Nat) (channel : Channel) : Bool :=
  if restrictions.isEmpty ∨ channel.id ∈ restrictions then true
  else
    match channel.parentId.bind g.channel? with
    | none => false
    | some parent =>
        if parent.unavailable ∨
            ¬ (if channel.type.isThread then parent.type.isThreadParent
              else parent.type = .category) then false
        else if parent.id ∈ restrictions then true
        else if ¬ channel.type.isThread then false
        else
          match parent.parentId.bind g.channel? with
          | none => false
          | some category =>
              !category.unavailable && category.type = .category && category.id ∈ restrictions

/-- `None` for humans; a bot without exactly one active installation gets
the empty grant. -/
def botGuildPermissionGrant (g : Guild) (actor : User) : Option BotGuildPermissionGrant :=
  if actor.accountType ≠ .bot then none
  else if actor.disabled then some { installationId := none, channelRestrictions := [] }
  else
    match g.installations.filter fun i => i.bot = actor.ref with
    | [i] => some { installationId := some i.id, channelRestrictions := i.channelRestrictions }
    | _ => some { installationId := none, channelRestrictions := [] }

/-- `BotGuildPermissionGrant.apply` -/
def applyGrant (g : Guild) (grant : BotGuildPermissionGrant) (permissions : Nat)
    (channel : Option Channel) : Nat :=
  if grant.installationId = none then 0
  else
    match channel with
    | none => permissions
    | some c =>
        if g.channelRestrictionsAllow grant.channelRestrictions c then
          normalizePermissionDependencies permissions (some c.type) false
        else 0

/-! ## `calculate_permissions` -/

/-- The channel a thread stands under. -/
def threadParent (g : Guild) (thread : Channel) : Except GuildError Channel :=
  found ((thread.parentId.bind g.channel?).filter fun p => p.type.isThreadParent)
    .channelParentInvalid

/-- `overwrite_source_channel`: a synced channel's category stands for it.
`calculate_permissions` repeats the same lines. -/
def overwriteSourceChannel (g : Guild) (channel : Channel) : Except GuildError Channel :=
  match channel.parentId with
  | none => .ok channel
  | some parentId =>
      if channel.permissionsSynced then
        found ((g.channel? parentId).filter fun p => p.type = .category) .channelParentInvalid
      else .ok channel

/-- The channel whose overwrites count. -/
def overwriteChannel (g : Guild) (channel : Channel) : Except GuildError Channel := do
  let source ← (if channel.type.isThread then g.threadParent channel else .ok channel)
  g.overwriteSourceChannel source

end Guild

/-- The rows `calculate_permissions` works on once they are read. -/
structure PermissionRows where
  guild : GuildRow
  member : GuildMember
  roles : List Role
  channel : Option Channel
  overwrites : List PermissionOverwrite
  threadMember : Bool
deriving DecidableEq, Repr

/-- Everything of `calculate_permissions` after the reads, for a human
member and for the roles' part of a bot's permissions. -/
def PermissionRows.resolve (rows : PermissionRows) (actor : User) (now : Nat) : Nat :=
  let permissions := resolvePermissions (rows.guild.owner = actor.ref)
    (actor.ref.id, actor.ref.domain) (rows.guild.id, rows.guild.domain)
    (rows.roles.map fun r => (r.id, rows.guild.domain))
    (rows.roles.foldl (fun mask r => mask ||| r.permissions) 0)
    rows.overwrites (rows.channel.map Channel.type) (rows.member.timedOut now)
  if rows.channel.any (fun c => c.type = .privateThread) ∧ permissions &&& manageThreads = 0
      ∧ ¬ rows.threadMember then 0
  else permissions

/-- Members who still have to accept the rules keep what a timed out member
keeps. -/
def PermissionRows.restrict (rows : PermissionRows) (actor : User) (permissions : Nat) : Nat :=
  if actor.accountType ≠ .bot ∧ permissions &&& administrator = 0
      ∧ needsRules rows.guild.onboarding rows.member.onboardingState then
    permissions &&& timeoutAllowed
  else permissions

namespace Guild

/-- The rows as they stand in `g`, for the channel row the caller holds. -/
def permissionRows (g : Guild) (actor : User) (channel : Option Channel) :
    Except GuildError PermissionRows := do
  let member ← found (g.member? actor.ref) .guildNotFound
  let overwrites ←
    (match channel with
    | none => .ok []
    | some c => (fun source => g.ownOverwrites source.id) <$> g.overwriteChannel c)
  .ok { guild := g.toGuildRow, member := member, roles := g.rolesOf actor.ref, channel := channel
        overwrites := overwrites
        threadMember := channel.any fun c => (c.id, actor.ref) ∈ g.threadMembers }

def calculatePermissions (g : Guild) (actor : User) (channel : Option Channel) (now : Nat) :
    Except GuildError Nat := do
  let rows ← g.permissionRows actor channel
  let permissions :=
    match g.botGuildPermissionGrant actor with
    | none => rows.resolve actor now
    | some grant => g.applyGrant grant (rows.resolve actor now) channel
  .ok (rows.restrict actor permissions)

/-- `require_permissions`, given the mask that was served for the actor.
The refusals that only differ in their text (rules, timeout, quarantine) are
one. -/
def requirePermissions (permissions needed : Nat) : Except GuildError Unit :=
  ensure (permissions &&& needed = needed) (.missingPermissions needed)

end Guild

/-- `require_current_version` -/
def requireCurrentVersion (updatedAt : Nat) (version : Option Nat) : Except GuildError Unit :=
  match version with
  | none => .error (.settingsVersionRequired updatedAt)
  | some v => ensure (v = updatedAt) (.settingsVersionConflict updatedAt)

/-! ## Authoritative mutations -/

/-- The event types of the mutations modelled here. -/
inductive GuildEvent where
  | guildUpdate
  | channelUpdate
  | channelDelete
  | threadMemberUpsert
  | threadMemberDelete
  | roleCreate
  | roleUpdate
  | roleDelete
  | memberUpdate
  | memberAdd
  | memberRemove
  | membersOriginRemove
  | memberRoleAdd
  | memberRoleRemove
  | overwriteUpsert
  | overwriteDelete
deriving DecidableEq, Repr

/-- `GUILD_E2EE_ACCESS_MUTATION_EVENTS` -/
def guildE2eeAccessMutationEvents : List GuildEvent :=
  [.memberAdd, .memberRemove, .membersOriginRemove, .memberRoleAdd, .memberRoleRemove,
    .roleUpdate, .roleDelete, .overwriteUpsert, .overwriteDelete]

namespace Guild

/-- `pause_guild_e2ee_for_membership_change` -/
def pauseGuildE2ee (g : Guild) : Guild := { g with channels := g.channels.map Channel.pause }

/-- `queue_guild_mutation`, as far as it writes to the guild's rows: the
sequence number, the snapshot generation and the outbox are elsewhere. -/
def queueGuildMutation (g : Guild) (event : GuildEvent) (pauseE2ee : Bool) : Guild :=
  if pauseE2ee ∧ event ∈ guildE2eeAccessMutationEvents then g.pauseGuildE2ee else g

theorem queueGuildMutation_eq (g : Guild) (event : GuildEvent) (pauseE2ee : Bool) :
    g.queueGuildMutation event pauseE2ee = { g with
      channels := if pauseE2ee ∧ event ∈ guildE2eeAccessMutationEvents
        then g.channels.map Channel.pause else g.channels } := by
  unfold queueGuildMutation pauseGuildE2ee
  split <;> rfl

/-- `guild.permission_generation += 1` -/
def bumpPermissionGeneration (g : Guild) : Guild :=
  { g with permissionGeneration := g.permissionGeneration + 1 }

def updateChannelRow (g : Guild) (id : Nat) (f : Channel → Channel) : Guild :=
  { g with channels := updateBy Channel.id id f g.channels }

def updateMember (g : Guild) (user : UserRef) (f : GuildMember → GuildMember) : Guild :=
  { g with members := updateBy GuildMember.user user f g.members }

end Guild

end Kaede
