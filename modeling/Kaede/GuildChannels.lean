import Kaede.GuildRoles

/-!
# Channel endpoints

Overwrites, permission sync, channel updates, reordering and deletion
(`backend/app/api/guilds.py`, `backend/app/api/management.py`), thread
members (`backend/app/api/threads.py`), members joining and leaving, and
onboarding (`backend/app/api/onboarding.py`). As with roles, each function
is one request against the locked guild.

A synced channel has no overwrites of its own that count: its category's
do. Endpoints that take it out of the category first copy them
(`copyOverwrites`).

The masks the cache served for the actor are inputs, and so is what a
request reads outside the guild (messages, settings, other users).
-/

namespace Kaede

open Permission

structure OverwriteTarget where
  type : TargetType
  id : Nat
  domain : String
deriving DecidableEq, Repr

def OverwriteTarget.selects (t : OverwriteTarget) (o : PermissionOverwrite) : Bool :=
  o.targetType = t.type ∧ o.targetId = t.id ∧ o.targetDomain = t.domain

namespace Guild

/-- `guild_channel` -/
def guildChannel (g : Guild) (id : Nat) : Except GuildError Channel :=
  found ((g.channel? id).filter fun c => !c.unavailable) .channelNotFound

/-! ## Overwrites -/

def deleteOverwrites (g : Guild) (channel : Nat) : Guild :=
  { g with overwrites := g.overwrites.filter fun o => o.channelId ≠ channel }

/-- `copy_overwrites`: delete the destination's, then insert the source's. -/
def copyOverwrites (g : Guild) (source destination : Nat) : Guild :=
  let g' := g.deleteOverwrites destination
  { g' with overwrites := g'.overwrites ++
      (g'.ownOverwrites source).map fun o => { channelId := destination, overwrite := o } }

/-- Take a synced channel out of its category with the overwrites it had
there. -/
def unsync (g : Guild) (channel : Channel) : Except GuildError Guild := do
  let source ← g.overwriteSourceChannel channel
  if source.id = channel.id then .ok g
  else
    .ok ((g.copyOverwrites source.id channel.id).updateChannelRow channel.id fun c =>
      { c with permissionsSynced := false })

/-- `validate_overwrite_target` -/
def validateOverwriteTarget (g : Guild) (actor : UserRef) (target : OverwriteTarget) :
    Except GuildError Unit :=
  match target.type with
  | .role => do
      let role ← found ((g.role? target.id).filter fun _ => target.domain = g.domain)
        .roleNotFound
      g.requireCanManageRole actor role
  | .member => g.requireCanManageMember actor { id := target.id, domain := target.domain }

/-- The stored overwrite of a channel for a target. -/
def overwriteFor (g : Guild) (channel : Nat) (target : OverwriteTarget) :
    Option PermissionOverwrite :=
  (g.ownOverwrites channel).find? target.selects

def deleteOverwriteFor (g : Guild) (channel : Nat) (target : OverwriteTarget) : Guild :=
  { g with overwrites := g.overwrites.filter fun o =>
      ¬ (o.channelId = channel ∧ target.selects o.overwrite) }

def setOverwriteFor (g : Guild) (channel : Nat) (target : OverwriteTarget) (allow deny : Nat) :
    Guild :=
  let g' := g.deleteOverwriteFor channel target
  { g' with overwrites := g'.overwrites ++ [{ channelId := channel, overwrite :=
      { targetId := target.id, targetDomain := target.domain, targetType := target.type
        allow := allow, deny := deny } }] }

/-- The bits a new pair of masks changes for a target. -/
def changedBits (existing : Option PermissionOverwrite) (allow deny : Nat) : Nat :=
  match existing with
  | none => allow ||| deny
  | some o => (o.allow ^^^ allow) ||| (o.deny ^^^ deny)

def touchChannel (g : Guild) (channel now : Nat) : Guild :=
  g.updateChannelRow channel fun c => { c with updatedAt := now }

def putOverwrite (g : Guild) (actor : UserRef) (actorPermissions channelId : Nat)
    (target : OverwriteTarget) (allow deny now : Nat) : Except GuildError Guild := do
  let channel ← g.guildChannel channelId
  ensure (channel.type.isThread = false) .threadOverwritesUnsupported
  requirePermissions actorPermissions manageRoles
  g.validateOverwriteTarget actor target
  let g₁ ← g.unsync channel
  let existing := g₁.overwriteFor channelId target
  ensure (andNot (changedBits existing allow deny) actorPermissions = 0) .cannotManagePermissions
  let emptyOverwrite := allow = 0 ∧ deny = 0
  let g₂ := if emptyOverwrite then g₁.deleteOverwriteFor channelId target
    else g₁.setOverwriteFor channelId target allow deny
  let event := if emptyOverwrite then GuildEvent.overwriteDelete else GuildEvent.overwriteUpsert
  .ok ((g₂.bumpPermissionGeneration.queueGuildMutation event true).touchChannel channelId now)

def deleteOverwrite (g : Guild) (actor : UserRef) (actorPermissions channelId : Nat)
    (target : OverwriteTarget) (now : Nat) : Except GuildError Guild := do
  let channel ← g.guildChannel channelId
  requirePermissions actorPermissions manageRoles
  g.validateOverwriteTarget actor target
  let g₁ ← g.unsync channel
  ensure (∀ o ∈ g₁.overwriteFor channelId target, andNot (o.allow ||| o.deny) actorPermissions = 0)
    .cannotManagePermissions
  let g₂ := g₁.deleteOverwriteFor channelId target
  .ok ((g₂.bumpPermissionGeneration.queueGuildMutation .overwriteDelete true).touchChannel
    channelId now)

/-- `require_bot_channel_grant` -/
def requireBotChannelGrant (g : Guild) (actor : User) (channels : List Channel) :
    Except GuildError Unit :=
  match g.botGuildPermissionGrant actor with
  | none => .ok ()
  | some grant => do
      ensure (grant.installationId ≠ none) .botNotInstalled
      forEach channels fun c =>
        ensure (c.unavailable = false ∧ g.channelRestrictionsAllow grant.channelRestrictions c)
          .botChannelRestricted

/-- Drop the channel's own overwrites and follow the category's. -/
def syncChannel (g : Guild) (channel : Nat) : Guild :=
  (g.deleteOverwrites channel).updateChannelRow channel
    fun c => { c with permissionsSynced := true }

def syncChannelPermissions (g : Guild) (actor : User) (actorPermissions channelId now : Nat) :
    Except GuildError Guild := do
  let channel ← g.guildChannel channelId
  requirePermissions actorPermissions manageRoles
  let parentId ← found (channel.parentId.filter fun _ => channel.type ≠ .category)
    .channelHasNoCategory
  let parent ← g.guildChannel parentId
  ensure (parent.type = .category) .parentNotCategory
  g.requireBotChannelGrant actor [parent]
  let g₁ := (g.syncChannel channelId).bumpPermissionGeneration
  .ok ((g₁.queueGuildMutation .channelUpdate true).touchChannel channelId now)

end Guild

/-! ## Schema constraints -/

/-- `parent_not_self`, `permission_sync_requires_parent` and
`thread_requires_unsynced_parent`. -/
def Channel.constraintsHold (c : Channel) : Bool :=
  c.parentId ≠ some c.id ∧
  (c.permissionsSynced → c.parentId ≠ none ∧ c.type ≠ .category) ∧
  (c.type.isThread → c.unavailable ∨ (c.parentId ≠ none ∧ c.permissionsSynced = false))

/-- Commit a change of channel rows; a violated constraint rolls it back. -/
def commitChannels (g : Guild) : Except GuildError Guild :=
  if g.channels.all Channel.constraintsHold then .ok g else .error .integrityError

/-! ## Updating a channel -/

/-- The fields a request supplies; `parentId := some none` takes the channel
out of its category. -/
structure ChannelUpdate where
  parentId : Option (Option Nat) := none
  syncPermissions : Bool := false
  position : Option Nat := none
  flags : Option Nat := none
  fields : List (ChannelField × Nat) := []
deriving DecidableEq, Repr

/-- What the request reads outside the guild: the masks served for the
channel and for the target category, whether E2EE can be activated here, and
whether the values of the fields are in range. -/
structure ChannelUpdateContext where
  channelMask : Nat
  parentMask : Nat
  syncMask : Nat
  e2eeActivationEnabled : Bool
  valuesAccepted : Bool
deriving DecidableEq, Repr

namespace ChannelField

def voice : List ChannelField := [.bitrate, .userLimit, .rtcRegion, .videoQualityMode]

def forum : List ChannelField :=
  [.availableTags, .defaultReactionEmoji, .defaultSortOrder, .defaultForumLayout, .e2eeRequired]

end ChannelField

namespace ChannelUpdate

def value? (payload : ChannelUpdate) (field : ChannelField) : Option Nat :=
  (payload.fields.find? fun f => f.1 = field).map Prod.snd

def supplies (payload : ChannelUpdate) (fields : List ChannelField) : Bool :=
  payload.fields.any fun f => f.1 ∈ fields

end ChannelUpdate

/-- The checks on the fields that no access decision reads. -/
def checkChannelFields (channel : Channel) (payload : ChannelUpdate) (ctx : ChannelUpdateContext) :
    Except GuildError Unit := do
  ensure (¬ (payload.value? .e2eeRequired = some 0 ∧ channel.type = .forum ∧
    channel.setting .e2eeRequired ≠ 0)) .forumE2eeRequirementIrreversible
  ensure (¬ ((∃ v ∈ payload.value? .e2eeRequired, v ≠ 0) ∧ channel.setting .e2eeRequired = 0 ∧
    ctx.e2eeActivationEnabled = false)) .e2eeActivationDisabled
  ensure (channel.type.isVoice ∨ ¬ payload.supplies ChannelField.voice) .voiceFieldsVoiceOnly
  ensure (channel.type = .forum ∨ ¬ (payload.supplies ChannelField.forum ∨ payload.flags ≠ none))
    .forumFieldsForumOnly
  ensure (channel.type.isThreadParent ∨ payload.value? .defaultAutoArchiveDuration = none)
    .threadDefaultChannelTypeInvalid
  ensure (channel.type = .text ∨ channel.type = .forum ∨
    payload.value? .defaultThreadRateLimitPerUser = none) .threadDefaultChannelTypeInvalid
  ensure ctx.valuesAccepted .channelSettingsInvalid

/-- The `setattr` loop. -/
def ChannelUpdate.apply (payload : ChannelUpdate) (channel : Channel) : Channel :=
  { channel with
    parentId := payload.parentId.getD channel.parentId
    position := payload.position.getD channel.position
    flags := payload.flags.getD channel.flags
    settings := payload.fields.foldl
      (fun settings f => if f.2 = (settings.find? fun s => s.1 = f.1).elim 0 Prod.snd then settings
        else f :: settings.filter fun s => s.1 ≠ f.1) channel.settings }

namespace ChannelUpdate

/-- The category the channel will be in. -/
def target (payload : ChannelUpdate) (channel : Channel) : Option Nat :=
  payload.parentId.getD channel.parentId

/-- `parent_changed` -/
def parentChanged (payload : ChannelUpdate) (channel : Channel) : Bool :=
  payload.target channel ≠ channel.parentId

/-- `permission_state_changed` -/
def changesPermissions (payload : ChannelUpdate) (channel : Channel) : Bool :=
  payload.parentChanged channel || (payload.syncPermissions && !channel.permissionsSynced)

/-- The row with every column of the request set. -/
def updated (payload : ChannelUpdate) (channel : Channel) : Channel :=
  { payload.apply channel with
    permissionsSynced := payload.syncPermissions ||
      (channel.permissionsSynced && !payload.parentChanged channel) }

end ChannelUpdate

namespace Guild

/-- The checks on a new parent. -/
def checkParent (g : Guild) (actor : User) (channel : Channel) (parent : Option Nat)
    (parentMask : Nat) : Except GuildError Unit := do
  ensure (parent ≠ some channel.id) .invalidChannelParent
  match parent with
  | none => .ok ()
  | some parentId =>
      ensure (channel.type ≠ .category) .invalidChannelParent
      let row ← g.guildChannel parentId
      ensure (row.type = .category) .parentNotCategory
      g.requireBotChannelGrant actor [row]
      if parent = channel.parentId then .ok ()
      else requirePermissions parentMask (viewChannel ||| manageChannels)

/-- The checks on an explicit sync, with the category the channel will be in. -/
def checkSync (g : Guild) (actor : User) (channel : Channel) (target : Option Nat)
    (parentSupplied : Bool) (syncMask : Nat) : Except GuildError Unit := do
  let parentId ← found (target.filter fun _ => channel.type ≠ .category) .channelHasNoCategory
  (if parentSupplied then .ok ()
  else do
    let row ← g.guildChannel parentId
    ensure (row.type = .category) .parentNotCategory
    g.requireBotChannelGrant actor [row])
  requirePermissions syncMask manageRoles

/-- The last part of `update_channel`, when there is something to commit. -/
def storeUpdate (g : Guild) (channel : Channel) (payload : ChannelUpdate) (now : Nat) :
    Except GuildError Guild :=
  let row := { payload.updated channel with updatedAt := now }
  let g₁ := g.updateChannelRow channel.id fun _ =>
    if payload.changesPermissions channel then row.pause else row
  let g₂ := if payload.changesPermissions channel then g₁.bumpPermissionGeneration else g₁
  commitChannels (g₂.queueGuildMutation .channelUpdate true)

/-- `update_channel`. Nothing is written unless a column changes. -/
def updateChannel (g : Guild) (actor : User) (channelId : Nat) (payload : ChannelUpdate)
    (version : Option Nat) (ctx : ChannelUpdateContext) (now : Nat) :
    Except GuildError Guild := do
  let channel ← g.guildChannel channelId
  ensure (channel.type.isThread = false) .useThreadEndpoint
  requireCurrentVersion channel.updatedAt version
  requirePermissions ctx.channelMask manageChannels
  checkChannelFields channel payload ctx
  let target := payload.target channel
  (if payload.parentId.isSome then g.checkParent actor channel target ctx.parentMask else .ok ())
  let g₁ ← (if payload.parentChanged channel ∧ channel.permissionsSynced then g.unsync channel
    else .ok g)
  (if payload.syncPermissions then
    g₁.checkSync actor channel target payload.parentId.isSome ctx.syncMask else .ok ())
  let g₂ := if payload.syncPermissions then g₁.syncChannel channelId else g₁
  if payload.updated channel = channel then .ok g else g₂.storeUpdate channel payload now

end Guild

/-! ## Reordering channels -/

/-- One entry of a batch; `parentId := some p` when the field is supplied. -/
structure ChannelPosition where
  id : Nat
  position : Option Nat := none
  parentId : Option (Option Nat) := none
  lockPermissions : Option Bool := none
  flags : Option Nat := none
deriving DecidableEq, Repr

/-- A payload that passed its validators. -/
structure ChannelPositionBatch where
  channels : List ChannelPosition
  nonempty : channels ≠ []
  bounded : channels.length ≤ 500
  uniqueIds : (channels.map ChannelPosition.id).Nodup

/-- An entry with what the first loop finds out about it. -/
structure PlannedMove where
  item : ChannelPosition
  nextParentId : Option Nat
  parentChanged : Bool
deriving DecidableEq, Repr

/-- A move that changes what the channel's members can do. -/
def PlannedMove.changesPermissions (g : Guild) (move : PlannedMove) : Bool :=
  (g.channel? move.item.id).any fun c => c.type ≠ .category &&
    (move.parentChanged || (move.item.lockPermissions = some true && !c.permissionsSynced))

/-- The columns a move sets. -/
def PlannedMove.write (move : PlannedMove) (c : Channel) : Channel :=
  { c with
    parentId := if move.item.parentId.isSome then move.nextParentId else c.parentId
    flags := move.item.flags.getD c.flags }

/-- `add_permission_check` -/
def addPermissionCheck (checks : List (Nat × Nat)) (channel needed : Nat) : List (Nat × Nat) :=
  if checks.any fun c => c.1 = channel then
    checks.map fun c => if c.1 = channel then (c.1, c.2 ||| needed) else c
  else checks ++ [(channel, needed)]

namespace ChannelPosition

/-- The permission checks one entry adds. -/
def permissionChecks (item : ChannelPosition) (channel : Channel) (nextParentId : Option Nat)
    (parentChanged flagsChanged : Bool) (checks : List (Nat × Nat)) : List (Nat × Nat) :=
  let checks₁ :=
    if parentChanged then
      let own := addPermissionCheck checks channel.id (viewChannel ||| manageChannels)
      nextParentId.elim own fun p => addPermissionCheck own p (viewChannel ||| manageChannels)
    else
      match item.position, channel.parentId with
      | some _, some p => addPermissionCheck checks p manageChannels
      | _, _ => checks
  let checks₂ := if item.lockPermissions = some true then
    addPermissionCheck checks₁ channel.id manageRoles else checks₁
  if flagsChanged then addPermissionCheck checks₂ channel.id manageChannels else checks₂

end ChannelPosition

/-- Place the groups of repositioned channels, lowest requested position
first. -/
def insertGroups : List (Nat × List Channel) → Nat → List Channel → List Channel
  | [], _, rest => rest
  | (requested, group) :: groups, previousEnd, rest =>
      let index := min (max requested previousEnd) rest.length
      insertGroups groups (index + group.length) (rest.take index ++ group ++ rest.drop index)

namespace Guild

/-- The channels a batch may name, in their present order. -/
def orderedChannels (g : Guild) : List Channel :=
  (g.channels.filter fun c => !c.unavailable && !c.type.isThread).mergeSort fun a b =>
    a.position < b.position || (a.position = b.position && a.id ≤ b.id)

/-- The checks on the category an entry asks for or keeps. -/
def checkNextParent (channels : List Channel) (item : ChannelPosition) (channel : Channel) :
    Option Nat → Except GuildError Unit
  | none => ensure (item.lockPermissions ≠ some true) .channelHasNoCategory
  | some p => do
      let parent ← found ((lookupBy Channel.id p channels).filter fun c => c.type = .category)
        .parentNotCategory
      ensure (parent.id ≠ channel.id) .invalidChannelParent

/-- The first loop: resolve each entry against the present rows. -/
def planMoves (channels : List Channel) : List ChannelPosition → List (Nat × Nat) →
    Except GuildError (List PlannedMove × List (Nat × Nat))
  | [], checks => .ok ([], checks)
  | item :: rest, checks => do
      let channel ← found (lookupBy Channel.id item.id channels) .channelSetChanged
      let nextParentId := item.parentId.getD channel.parentId
      let parentChanged := item.parentId.isSome && nextParentId ≠ channel.parentId
      ensure (¬ (channel.type = .category ∧ item.parentId.isSome ∧ nextParentId ≠ none))
        .invalidChannelParent
      checkNextParent channels item channel nextParentId
      let flagsChanged := item.flags.any fun f => f ≠ channel.flags
      ensure (flagsChanged = true → channel.type = .forum) .forumFieldsForumOnly
      let checks' := item.permissionChecks channel nextParentId parentChanged flagsChanged checks
      let (moves, checks'') ← planMoves channels rest checks'
      .ok ({ item := item, nextParentId := nextParentId, parentChanged := parentChanged } :: moves,
        checks'')

/-- One round of the second loop. -/
def applyMove (g : Guild) (move : PlannedMove) : Except GuildError Guild := do
  let item := move.item
  let channel ← found (g.channel? item.id) .channelSetChanged
  let lock := item.lockPermissions = some true
  let lockChanged := lock ∧ channel.permissionsSynced = false
  let flagsChanged := item.flags.any fun f => f ≠ channel.flags
  if ¬ move.parentChanged ∧ ¬ lockChanged ∧ ¬ flagsChanged then .ok g
  else
    let affects := channel.type ≠ .category ∧ (move.parentChanged ∨ lockChanged)
    let g₁ ←
      (if affects ∧ lock then .ok (g.syncChannel channel.id)
      else if affects ∧ move.parentChanged ∧ channel.permissionsSynced then g.unsync channel
      else .ok g)
    .ok (g₁.updateChannelRow channel.id fun c =>
      if affects then (move.write c).pause else move.write c)

def applyMoves : List PlannedMove → Guild → Except GuildError Guild
  | [], g => .ok g
  | move :: rest, g => do
      let g' ← g.applyMove move
      applyMoves rest g'

/-- The order the batch asks for. -/
def finalOrder (channels : List Channel) (items : List ChannelPosition) : List Nat :=
  let requested := items.filterMap fun i => i.position
  let groups := (requested.dedup.mergeSort (· ≤ ·)).map fun p =>
    (p, ((items.filter fun i => i.position = some p).filterMap fun i =>
      lookupBy Channel.id i.id channels).mergeSort fun a b => a.id ≤ b.id)
  let positioned := (items.filter fun i => i.position ≠ none).map ChannelPosition.id
  (insertGroups groups 0 (channels.filter fun c => c.id ∉ positioned)).map Channel.id

/-- `enumerate(final_channels)` -/
def setPositions (g : Guild) (order : List Nat) : Guild :=
  { g with channels := g.channels.map fun c =>
      if c.id ∈ order then { c with position := order.idxOf c.id } else c }

/-- Stamp the rows that differ from the ones read. -/
def touchChanged (g before : Guild) (now : Nat) : Guild :=
  { g with channels := g.channels.map fun c =>
      if before.channel? c.id = some c then c else { c with updatedAt := now } }

/-- The last part of `reorder_channels`, when there is something to commit. -/
def storeOrder (g : Guild) (permissionStateChanged : Bool) : Except GuildError Guild :=
  let g₁ := if permissionStateChanged then g.bumpPermissionGeneration else g
  commitChannels (g₁.queueGuildMutation .channelUpdate true)

/-- `reorder_channels`; `masks` is what was served for each channel. -/
def reorderChannels (g : Guild) (actor : User) (actorPermissions : Nat) (masks : Nat → Nat)
    (payload : ChannelPositionBatch) (now : Nat) : Except GuildError Guild := do
  requirePermissions actorPermissions manageChannels
  let channels := g.orderedChannels
  ensure (∀ i ∈ payload.channels, i.id ∈ channels.map Channel.id) .channelSetChanged
  ensure (∀ i ∈ payload.channels, ∀ p ∈ i.position, p < channels.length) .channelPositionInvalid
  let (moves, checks) ← planMoves channels payload.channels []
  ensure ((moves.filter PlannedMove.parentChanged).length ≤ 1) .channelParentBatchLimit
  let fenced := payload.channels.map ChannelPosition.id
    ++ (moves.filter fun m => m.item.lockPermissions = some true).filterMap PlannedMove.nextParentId
    ++ checks.map Prod.fst
  g.requireBotChannelGrant actor
    ((fenced.dedup.mergeSort (· ≤ ·)).filterMap fun id => lookupBy Channel.id id channels)
  forEach (checks.mergeSort fun a b => a.1 ≤ b.1) fun c => requirePermissions (masks c.1) c.2
  let g₁ ← applyMoves moves g
  let g₂ := (g₁.setPositions (finalOrder channels payload.channels)).touchChanged g now
  if g₂.channels = g.channels then .ok g
  else g₂.storeOrder (moves.any (PlannedMove.changesPermissions g))

end Guild

/-! ## Deleting a channel -/

/-- What `delete_channel` finds outside the guild's rows. -/
structure DeleteContext where
  mask : Nat
  messageExists : Bool
  announcementDependencies : Bool
  deletable : Bool
deriving DecidableEq, Repr

namespace Guild

/-- The row goes, with the rows that cascade; children lose their parent by
the foreign key's `SET NULL`. -/
def dropChannel (g : Guild) (channelId : Nat) : Guild :=
  { g with
    channels := (g.channels.filter fun c => c.id ≠ channelId).map fun c =>
      if c.parentId = some channelId then { c with parentId := none } else c
    overwrites := g.overwrites.filter fun o => o.channelId ≠ channelId
    threadMembers := g.threadMembers.filter fun t => t.1 ≠ channelId }

def deleteChannel (g : Guild) (channelId : Nat) (ctx : DeleteContext) :
    Except GuildError Guild := do
  let channel ← g.guildChannel channelId
  ensure (channel.type.isThread = false) .useThreadEndpoint
  requirePermissions ctx.mask manageChannels
  ensure (ctx.messageExists = false) .channelNotEmpty
  ensure (∀ c ∈ g.channels, ¬ (c.parentId = some channelId ∧ c.type.isThread ∧ ¬ c.unavailable))
    .channelNotEmpty
  ensure (ctx.announcementDependencies = false) .channelHasAnnouncementDependencies
  ensure ctx.deletable .channelNotDeletable
  commitChannels ((g.queueGuildMutation .channelDelete true).dropChannel channelId)

end Guild

/-! ## Thread members -/

/-- The masks served for the actor on the thread and for the target on its
parent, and what else the request reads about the two users. -/
structure ThreadMemberContext where
  threadMask : Nat
  targetParentMask : Nat
  preferencesSet : Bool
  targetExists : Bool
  interactionsAllowed : Bool
deriving DecidableEq, Repr

def maxThreadMembers : Nat := 1000

namespace Guild

/-- `load_channel_access` and `thread_access` -/
def threadAccess (g : Guild) (actor : UserRef) (threadId mask needed : Nat) :
    Except GuildError Channel := do
  let _ ← found (g.member? actor) .channelNotFound
  let thread ← found ((g.channel? threadId).filter fun c => !c.unavailable && c.type.isThread)
    .threadNotFound
  requirePermissions mask needed
  .ok thread

/-- Who may see a private thread has changed. -/
def privateAccessChanged (g : Guild) (thread : Channel) : Guild :=
  if thread.type = .privateThread then
    (g.bumpPermissionGeneration).updateChannelRow thread.id Channel.pause
  else g

/-- `put_thread_member_service`. Setting preferences of an existing
membership changes nothing that is modelled. -/
def putThreadMember (g : Guild) (actor target : UserRef) (threadId : Nat)
    (ctx : ThreadMemberContext) : Except GuildError Guild := do
  let thread ← g.threadAccess actor threadId ctx.threadMask
    (if actor = target then viewChannel else viewChannel ||| sendMessagesInThreads)
  ensure (thread.archived = false) .threadArchived
  ensure (actor = target ∨ ctx.preferencesSet = false) .threadMemberPreferencesSelfOnly
  ensure (actor = target ∨ thread.type ≠ .privateThread ∨ ctx.threadMask &&& manageThreads ≠ 0 ∨
    (thread.invitable ∧ (threadId, actor) ∈ g.threadMembers)) .missingThreadPermissions
  let _ ← found (g.member? target) .guildMemberNotFound
  ensure ctx.targetExists .userNotFound
  let _ ← found (thread.parentId.bind g.channel?) .threadParentInvalid
  ensure (ctx.targetParentMask &&& viewChannel ≠ 0) .threadMemberParentHidden
  if (threadId, target) ∈ g.threadMembers then .ok g
  else
    ensure (thread.memberCount < maxThreadMembers) .threadMemberLimit
    ensure (actor ≠ target ∨ ctx.interactionsAllowed) .interactionsBlocked
    let g₁ := { g with threadMembers := g.threadMembers ++ [(threadId, target)] }
    let g₂ := g₁.updateChannelRow threadId fun c => { c with memberCount := c.memberCount + 1 }
    .ok ((g₂.privateAccessChanged thread).queueGuildMutation .threadMemberUpsert true)

/-- `delete_thread_member_service` -/
def deleteThreadMember (g : Guild) (actor target : UserRef) (threadId : Nat)
    (ctx : ThreadMemberContext) : Except GuildError Guild := do
  let thread ← g.threadAccess actor threadId ctx.threadMask viewChannel
  ensure (thread.archived = false) .threadArchived
  ensure (actor = target ∨ ctx.threadMask &&& manageThreads ≠ 0 ∨
    (thread.type = .privateThread ∧ thread.threadOwner = some actor)) .missingThreadPermissions
  if (threadId, target) ∈ g.threadMembers then
    let g₁ := { g with threadMembers := g.threadMembers.filter fun t => t ≠ (threadId, target) }
    let g₂ := g₁.updateChannelRow threadId fun c => { c with memberCount := c.memberCount - 1 }
    .ok ((g₂.privateAccessChanged thread).queueGuildMutation .threadMemberDelete true)
  else .ok g

/-! ## Joining and leaving -/

/-- The roles of an invite that still exist and can be granted. -/
def inviteRoles (g : Guild) (roleIds : List Nat) : List Nat :=
  if g.id ∈ roleIds then []
  else (g.roles.filter fun r => r.id ∈ roleIds ∧ r.managed = false).map Role.id

/-- A new member; bots do not pause the guild's encrypted channels. -/
def addMember (g : Guild) (user : User) (roleIds : List Nat) (temporary : Bool) :
    Except GuildError Guild := do
  ensure (g.member? user.ref = none) .memberExists
  let granted := g.inviteRoles roleIds
  let member : GuildMember :=
    { user := user.ref, memberVersion := 1, temporary := temporary && granted.isEmpty
      timeoutUntil := none, timeoutIndefinite := false
      onboardingState := { rulesRevision := none, grantedRoleIds := [] } }
  let g' := { g with
    members := g.members ++ [member]
    memberRoles := g.memberRoles ++ granted.map fun id => (user.ref, id) }
  .ok (g'.queueGuildMutation .memberAdd (user.accountType ≠ .bot))

/-- The threads some of these users are explicit members of. -/
def joinedThread (g : Guild) (leaving : UserRef → Bool) (c : Channel) : Bool :=
  c.type.isThread && !c.unavailable && g.threadMembers.any fun t => t.1 = c.id && leaving t.2

/-- `cleanup_guild_member_threads` -/
def cleanupMemberThreads (g : Guild) (leaving : UserRef → Bool) : Guild :=
  let privateThreads := g.channels.filter fun c =>
    g.joinedThread leaving c && c.type = .privateThread
  { g with
    permissionGeneration := g.permissionGeneration + privateThreads.length
    channels := g.channels.map fun c =>
      if g.joinedThread leaving c then
        let row := { c with memberCount := c.memberCount -
          (g.threadMembers.filter fun t => t.1 = c.id && leaving t.2).length }
        if c.type = .privateThread then row.pause else row
      else c
    threadMembers := g.threadMembers.filter fun t => !leaving t.2 }

/-- Delete member rows and what cascades from them. -/
def dropMembers (g : Guild) (leaving : UserRef → Bool) : Guild :=
  { g.cleanupMemberThreads leaving with
    members := g.members.filter fun m => !leaving m.user
    memberRoles := g.memberRoles.filter fun h => !leaving h.1 }

/-- Kick, ban and leave, after their authorization. -/
def removeMember (g : Guild) (user : User) : Except GuildError Guild := do
  let _ ← found (g.member? user.ref) .memberNotFound
  .ok ((g.dropMembers fun u => u = user.ref).queueGuildMutation .memberRemove
    (user.accountType ≠ .bot))

/-- The instance ban removes everyone of a domain. -/
def removeOriginMembers (g : Guild) (domain : String) (accountType : UserRef → AccountType) :
    Except GuildError Guild :=
  let removedHuman := g.members.any fun m => m.user.domain = domain && accountType m.user ≠ .bot
  .ok ((g.dropMembers fun u => u.domain = domain).queueGuildMutation .membersOriginRemove
    removedHuman)

end Guild

/-! ## Onboarding -/

/-- `SELF_ASSIGNABLE_PERMISSIONS` -/
def selfAssignablePermissions : Nat :=
  viewChannel ||| readMessageHistory ||| sendMessages ||| addReactions ||| connect ||| speak
    ||| stream ||| useVad ||| attachFiles ||| embedLinks ||| sendMessagesInThreads

structure OnboardingAnswers where
  revision : Nat
  acceptRules : Bool
  answers : List (Nat × List Nat)
  completedTasks : List Nat
  extraChannelIds : List Nat
deriving DecidableEq, Repr

namespace OnboardingConfig

def roleIds (config : OnboardingConfig) : List Nat :=
  (config.questions.flatMap fun q => q.options.flatMap OnboardingOption.roleIds).dedup

def channelIds (config : OnboardingConfig) : List Nat :=
  (config.defaultChannelIds
    ++ (config.questions.flatMap fun q => q.options.flatMap OnboardingOption.channelIds)
    ++ config.guide.filterMap GuideItem.channelId).dedup

end OnboardingConfig

/-- The answers to one question. -/
def OnboardingAnswers.to (payload : OnboardingAnswers) (q : OnboardingQuestion) : List Nat :=
  ((payload.answers.find? fun a => a.1 = q.id).map Prod.snd).getD []

/-- `selected_onboarding`, as far as roles are concerned. -/
def selectedOnboarding (config : OnboardingConfig) (payload : OnboardingAnswers) :
    Except GuildError (List Nat) := do
  ensure (payload.revision = config.revision) .onboardingChanged
  ensure (∀ a ∈ payload.answers, a.1 ∈ config.questions.map OnboardingQuestion.id)
    .onboardingInvalidAnswer
  forEach config.questions fun q =>
    ensure ((payload.to q).Nodup ∧ (∀ a ∈ payload.to q, a ∈ q.options.map OnboardingOption.id) ∧
      (q.multiple ∨ (payload.to q).length ≤ 1) ∧
      ¬ (q.required ∧ q.beforeJoin ∧ payload.to q = [])) .onboardingInvalidAnswer
  ensure (∀ t ∈ payload.completedTasks, t ∈ (config.guide.filter GuideItem.task).map GuideItem.id)
    .onboardingInvalidTask
  .ok ((config.questions.flatMap fun q =>
    (q.options.filter fun o => o.id ∈ payload.to q).flatMap OnboardingOption.roleIds).dedup)

namespace Guild

/-- `safe_role` -/
def safeRole (g : Guild) (roleId : Nat) : Except GuildError Role := do
  let role ← found (g.role? roleId) .onboardingInvalidRole
  ensure (role.id ≠ g.id ∧ role.managed = false ∧
    andNot role.permissions selfAssignablePermissions = 0 ∧
    ∀ o ∈ g.overwrites, o.overwrite.targetType = .role → o.overwrite.targetId = role.id →
      andNot o.overwrite.allow selfAssignablePermissions = 0) .onboardingInvalidRole
  .ok role

/-- `update_onboarding`; `masks` is what was served for each channel. -/
def updateOnboarding (g : Guild) (actor : UserRef) (actorPermissions : Nat) (masks : Nat → Nat)
    (payload : OnboardingConfig) : Except GuildError Guild := do
  let _ ← found (g.member? actor) .guildNotFound
  requirePermissions actorPermissions (manageGuild ||| manageRoles)
  ensure (payload.revision = g.onboarding.revision) .onboardingChanged
  forEach payload.roleIds fun id => do
    let role ← g.safeRole id
    g.requireCanManageRole actor role
  forEach payload.channelIds fun id => do
    let _ ← found ((g.channel? id).filter fun c => !c.unavailable && c.type ≠ .category &&
      !c.type.isThread) .onboardingInvalidChannel
    requirePermissions (masks id) viewChannel
  let rulesChanged := payload.rules ≠ g.onboarding.rules ∨ payload.enabled ≠ g.onboarding.enabled
  let config := { payload with
    revision := g.onboarding.revision + 1
    rulesRevision := g.onboarding.rulesRevision + if rulesChanged then 1 else 0 }
  let g' := { g with onboarding := config }
  .ok (g'.bumpPermissionGeneration.queueGuildMutation .guildUpdate true)

/-- `complete_onboarding` -/
def completeOnboarding (g : Guild) (actor : UserRef) (masks : Nat → Nat)
    (payload : OnboardingAnswers) : Except GuildError Guild := do
  let member ← found (g.member? actor) .guildNotFound
  ensure (g.onboarding.enabled = true) .onboardingDisabled
  let wanted ← selectedOnboarding g.onboarding payload
  ensure (needsRules g.onboarding member.onboardingState = false ∨ payload.acceptRules)
    .rulesAcceptanceRequired
  forEach wanted fun id => do
    let _ ← g.safeRole id
    .ok ()
  forEach payload.extraChannelIds fun id => do
    let _ ← found ((g.channel? id).filter fun c => !c.unavailable) .onboardingInvalidChannel
    requirePermissions (masks id) viewChannel
  let existing := g.explicitRoles actor
  let owned := member.onboardingState.grantedRoleIds
  let dropped := (owned.filter fun id => id ∉ wanted).filter fun id => id ∈ existing
  let added := wanted.filter fun id => id ∉ existing
  let granted := (owned.filter fun id => id ∈ wanted) ++ added
  let g₁ := { g with
    memberRoles := (g.memberRoles.filter fun h : UserRef × Nat => ¬ (h.1 = actor ∧ h.2 ∈ dropped))
      ++ added.map fun id => (actor, id) }
  let g₂ := g₁.updateMember actor fun m =>
    { m with
      temporary := m.temporary && wanted.isEmpty
      memberVersion := m.memberVersion + 1
      onboardingState :=
        { rulesRevision := some g.onboarding.rulesRevision, grantedRoleIds := granted.dedup } }
  let events := (dropped.map fun _ => GuildEvent.memberRoleRemove)
    ++ (added.map fun _ => GuildEvent.memberRoleAdd) ++ [.memberUpdate]
  .ok (events.foldl (fun state event => state.queueGuildMutation event true) g₂)

end Guild

end Kaede
