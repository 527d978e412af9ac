import Kaede.Atomic
import Kaede.DesktopState
import Kaede.Json

/-!
# The reducer on gateway payloads

`Kaede.DesktopState` takes dispatches that are decoded. Here a dispatch is
the JSON that came in, and the handlers of `reducer.rs`
(`desktop/crates/kaede-core/src`) read it piece by piece, in the order of
the source, between their writes to the account. What a handler does to
channels and messages is what it does there.

What the derived decoders make of a piece of JSON is a parameter, a
`Codec`: nothing here depends on it, except that an identity reads back
what it is written as. Columns that no handler looks at are one text, and
the settings, asset paths and notification levels, which no dispatch
touches, are left out.
-/

namespace Kaede

namespace Desktop

/-! ## The rest of the account -/

structure Role where
  key : EntityRef
  details : String := ""
deriving DecidableEq, Repr

structure Member where
  guildKey : EntityRef
  user : User
  details : String := ""
deriving DecidableEq, Repr

structure Presence where
  userKey : EntityRef
  details : String := ""
deriving DecidableEq, Repr

structure VoiceState where
  userKey : EntityRef
  channelId : Option Snowflake
  channelDomain : Option Domain
  details : String := ""
deriving DecidableEq, Repr

structure Call where
  channelKey : EntityRef
  state : String
  details : String := ""
deriving DecidableEq, Repr

structure ReadState where
  channelKey : EntityRef
  details : String := ""
deriving DecidableEq, Repr

structure Relationship where
  kind : String
  user : User
  details : String := ""
deriving DecidableEq, Repr

structure CustomEmoji where
  key : EntityRef
  details : String := ""
deriving DecidableEq, Repr

/-- `AppState`, whole. -/
structure Account where
  state : AppState := {}
  sessionId : Option String := none
  users : Table EntityRef User := ∅
  roles : Table EntityRef Role := ∅
  members : Table (EntityRef × EntityRef) Member := ∅
  presences : Table EntityRef Presence := ∅
  typing : Table (EntityRef × EntityRef) Int := ∅
  voiceStates : Table EntityRef VoiceState := ∅
  calls : Table EntityRef Call := ∅
  readStates : Table EntityRef ReadState := ∅
  relationships : Table EntityRef Relationship := ∅
  emojis : Table EntityRef CustomEmoji := ∅

/-! ## Payloads -/

structure ReadyPayload where
  sessionId : String
  user : User
  guilds : List (Guild × List Role)
  dmChannels : List Channel
  presences : List Presence
  readStates : List ReadState

structure RelationshipUpdate where
  kind : String
  user : User
  errorCode : Option String

structure HistoryUpdate where
  guild : EntityRef
  status : String
  code : Option String
  retryAfterMs : Option Nat
  resource : Option String

/-- The decoders, one for each type that a handler asks for. -/
structure Codec (F : Type) where
  snowflake : Json F → Option Snowflake
  domain : Json F → Option Domain
  bool : Json F → Option Bool
  user : Json F → Option User
  message : Json F → Option Message
  encodeMessage : Message → Option (Json F)
  channel : Json F → Option Channel
  guild : Json F → Option (Guild × List Role)
  role : Json F → Option Role
  member : Json F → Option Member
  presence : Json F → Option Presence
  voiceState : Json F → Option VoiceState
  encodeVoiceState : VoiceState → Option (Json F)
  call : Json F → Option Call
  readState : Json F → Option ReadState
  emoji : Json F → Option CustomEmoji
  ready : Json F → Option ReadyPayload
  resumed : Json F → Option (Option (List Presence))
  typingStart : Json F → Option (EntityRef × EntityRef)
  /-- The channel and the references of a bulk delete. -/
  bulkDelete : Json F → Option (EntityRef × List EntityRef)
  /-- The actor of a reaction, and the reaction. -/
  reactionUpdate : Json F → Option (EntityRef × String)
  /-- The message, the actor and the answer of a vote. -/
  pollVote : Json F → Option (EntityRef × EntityRef × Nat)
  /-- The nonce, the code and the reason of a rejection. -/
  rejection : Json F → Option (String × String × Option String)
  delivery : Json F → Option (EntityRef × String × Option String)
  attachmentUpdate : Json F → Option (EntityRef × Attachment)
  dmRejection : Json F → Option String
  chunk : Json F → Option (List Member)
  memberList : Json F → Option (List (String × List Member))
  permissionUpdate : Json F → Option (EntityRef × Nat)
  threadSync : Json F → Option (List Channel)
  historyUpdate : Json F → Option HistoryUpdate
  relationshipUpdate : Json F → Option RelationshipUpdate
  /-- What passed the checks reads back as it is written. -/
  reads_back : ∀ key : EntityRef, snowflake (.str (toString key.id.value)) = some key.id ∧
    domain (.str key.domain.text) = some key.domain

abbrev Handler := Action ReduceError Account Reduction

section

variable {F : Type} {α : Type}

/-- `decode` and `from_value`. -/
def decode (decoder : Json F → Option α) (value : Json F) : Action ReduceError Account α :=
  match decoder value with
  | some a => pure a
  | none => .fail .payload

def field (value : Json F) (name : String) : Action ReduceError Account (Json F) :=
  match value.get? name with
  | some item => pure item
  | none => .fail (.missingField name)

/-- Write, and report a change. -/
def done (f : Account → Account) : Handler := do
  Action.write f
  pure { changed := true }

/-- A handler of `Kaede.DesktopState`. -/
def onState (h : AppState → Handled) : Handler := fun a =>
  ((h a.state).2, { a with state := (h a.state).1 })

variable (c : Codec F)

/-- The two parts of an identity, under given names. -/
def refFrom (value : Json F) (idName domainName : String) :
    Action ReduceError Account EntityRef := do
  let id ← field value idName
  let domain ← field value domainName
  let id ← decode c.snowflake id
  let domain ← decode c.domain domain
  pure ⟨id, domain⟩

def entityRef (value : Json F) : Action ReduceError Account EntityRef :=
  if (value.get? "id").isSome then refFrom c value "id" "origin_domain"
  else if (value.get? "channel_id").isSome then refFrom c value "channel_id" "channel_domain"
  else if (value.get? "role_id").isSome then refFrom c value "role_id" "role_domain"
  else refFrom c value "guild_id" "guild_domain"

def messageEventRef (value : Json F) : Action ReduceError Account EntityRef :=
  if (value.get? "message_id").isSome then refFrom c value "message_id" "message_domain"
  else refFrom c value "id" "origin_domain"

def nestedEntityRef (value : Json F) (name : String) : Action ReduceError Account EntityRef := do
  let nested ← field value name
  entityRef c nested

/-! ## Session -/

/-- `hydrate_guilds`, with the roles that the guilds bring along. -/
def Account.hydrateGuilds (a : Account) (guilds : List (Guild × List Role)) : Account :=
  { a with
    state := a.state.hydrateGuilds (guilds.map Prod.fst)
    roles := a.roles.insertAll Role.key (guilds.flatMap Prod.snd) }

def ready (value : Json F) : Handler := do
  let payload ← decode c.ready value
  done fun a =>
    let a := Account.hydrateGuilds { a with
      sessionId := some payload.sessionId
      state := { a.state with currentUser := some payload.user }
      users := a.users.insert payload.user.key payload.user } payload.guilds
    { a with
      state := a.state.hydrateChannels payload.dmChannels
      presences := Table.insertAll Presence.userKey payload.presences ∅
      readStates := a.readStates.insertAll ReadState.channelKey payload.readStates }

def resumed (value : Json F) : Handler := do
  let presences ← decode c.resumed value
  done fun a => { a with
    presences := a.presences.insertAll Presence.userKey (presences.getD []) }

def upsertTyping (now : Int) (value : Json F) : Handler := do
  let typing ← decode c.typingStart value
  done fun a => { a with typing := a.typing.insert typing now }

/-! ## Messages -/

def upsertMessage (value : Json F) : Handler := do
  let message ← decode c.message value
  onState fun s => s.upsertMessage message

/-- A complete message is written out and read again. -/
def updateMessage (value : Json F) : Handler :=
  match c.message value with
  | some message =>
      match c.encodeMessage message with
      | none => .fail .payload
      | some value => upsertMessage c value
  | none => do
      let key ← entityRef c value
      onState fun s => s.updateMessagePin key ((value.get? "pinned").map c.bool)

def deleteMessage (value : Json F) : Handler := do
  let key ← entityRef c value
  onState fun s => s.deleteMessage key

def deleteMessagesBulk (value : Json F) : Handler := do
  let update ← decode c.bulkDelete value
  onState fun s => s.deleteMessagesBulk update.1 false update.2

def updateReaction (added : Bool) (value : Json F) : Handler := do
  let update ← decode c.reactionUpdate value
  if update.2 = "" then .fail (.missingField "reaction")
  else
    let key ← messageEventRef c value
    onState fun s => s.updateReaction added key update.1 update.2

def clearReactions (oneEmoji : Bool) (value : Json F) : Handler := do
  let key ← messageEventRef c value
  onState fun s => s.clearReactions key
    (if oneEmoji then some ((value.get? "reaction").bind Json.str?) else none)

/-- The channel that a pin names, if it names one in full. -/
def pinChannel (value : Json F) : Action ReduceError Account (Option EntityRef) :=
  match value.get? "channel_id", value.get? "channel_domain" with
  | some id, some domain => do
      let id ← decode c.snowflake id
      let domain ← decode c.domain domain
      pure (some ⟨id, domain⟩)
  | _, _ => pure none

def updatePin (value : Json F) : Handler :=
  if (value.get? "message_id").isNone ∧ (value.get? "id").isNone then pure {}
  else do
    let key ← messageEventRef c value
    let a ← Action.read
    if (a.state.messages.lookup key).isNone then pure {}
    else
      let channel ← pinChannel c value
      onState fun s => s.updatePin (some key) channel ((value.get? "pinned").map c.bool)

def updatePollVote (added : Bool) (value : Json F) : Handler := do
  let update ← decode c.pollVote value
  onState fun s => s.updatePollVote added update.1 update.2.1 update.2.2

def rejectMessage (value : Json F) : Handler := do
  let rejection ← decode c.rejection value
  onState fun s => changed
    (s.failMessage rejection.1 (AppState.rejectionReason rejection.2.1 rejection.2.2))

def updateDelivery (value : Json F) : Handler := do
  let delivery ← decode c.delivery value
  onState fun s => s.updateDelivery delivery.1 delivery.2.1 delivery.2.2

def updateAttachment (value : Json F) : Handler := do
  let update ← decode c.attachmentUpdate value
  onState fun s => s.updateAttachment update.1 update.2

def dmRejectionMessage (code : String) : String :=
  match code with
  | "DM_BLOCKED" => "This person is not accepting direct messages from you."
  | "DM_PRIVACY_DENIED" | "CANNOT_DM_USER" =>
      "This person’s privacy settings do not allow this direct message."
  | "KAED_FED_IDENTITY_STORAGE_QUOTA_EXCEEDED" | "FEDERATION_IDENTITY_STORAGE_QUOTA_EXCEEDED" =>
      "This direct message could not be opened because the receiving instance has reached its " ++
        "remote-account storage limit. Try again later or contact its administrator."
  | "KAED_FED_INSTANCE_STORAGE_QUOTA_EXCEEDED" | "FEDERATION_INSTANCE_STORAGE_QUOTA_EXCEEDED" =>
      "This direct message could not be opened because the receiving instance has reached its " ++
        "remote-server storage limit. Try again later or contact its administrator."
  | "KAED_FED_DELIVERY_EXPIRED" =>
      "The remote instance did not accept this direct-message request before the delivery " ++
        "window ended. Try opening it again later."
  | "KAED_FED_EVENT_TOO_LARGE" =>
      "This direct-message request was too large to send between instances."
  | _ => "The direct-message request was rejected by the recipient’s home instance."

def rejectDmOpen (value : Json F) : Handler := do
  let code ← decode c.dmRejection value
  pure { userError := some (dmRejectionMessage code) }

/-! ## Channels and guilds -/

def upsertChannel (value : Json F) : Handler := do
  let channel ← decode c.channel value
  onState fun s => s.upsertChannel channel

def updateChannelPermissions (value : Json F) : Handler := do
  let update ← decode c.permissionUpdate value
  onState fun s => s.updateChannelPermissions update.1 update.2

def removeChannel (value : Json F) : Handler := do
  let key ← entityRef c value
  onState fun s => s.removeChannel key

/-- The thread in a payload, or the payload itself. -/
def threadOf (value : Json F) : Json F :=
  ((value.get? "channel").or (value.get? "thread")).getD value

def upsertThread (value : Json F) : Handler := upsertChannel c (threadOf value)

def removeThread (value : Json F) : Handler := removeChannel c (threadOf value)

def syncThreads (value : Json F) : Handler := do
  let threads ← decode c.threadSync value
  onState fun s => s.syncThreads threads

def upsertGuild (value : Json F) : Handler := do
  let guild ← decode c.guild value
  done fun a => a.hydrateGuilds [guild]

def updateGuildHistorySync (value : Json F) : Handler := do
  let update ← decode c.historyUpdate value
  onState fun s => s.updateGuildHistorySync update.guild update.status update.code
    update.retryAfterMs update.resource

/-- The payload that `remove_guild` makes for each channel. -/
def refJson (key : EntityRef) : Json F :=
  .obj [("id", .str (toString key.id.value)), ("origin_domain", .str key.domain.text)]

def removeChannels : List EntityRef → List EntityRef → Handler
  | [], purged => pure { changed := true, purgeChannels := purged }
  | channel :: channels, purged => do
      let reduction ← removeChannel c (refJson channel)
      removeChannels channels (purged ++ reduction.purgeChannels)

def removeGuild (value : Json F) : Handler := do
  let key ← entityRef c value
  Action.write fun a => { a with state := { a.state with guilds := a.state.guilds.erase key } }
  let a ← Action.read
  removeChannels c (a.state.guildChannels key) []

def upsertRole (value : Json F) : Handler := do
  let role ← decode c.role value
  done fun a => { a with roles := a.roles.insert role.key role }

def removeRole (value : Json F) : Handler := do
  let key ← entityRef c value
  done fun a => { a with roles := a.roles.erase key }

/-! ## Members and users -/

def Account.insertMember (a : Account) (member : Member) : Account :=
  { a with
    users := a.users.insert member.user.key member.user
    members := a.members.insert (member.guildKey, member.user.key) member }

def upsertMember (value : Json F) : Handler := do
  let member ← decode c.member value
  done fun a => a.insertMember member

def removeMember (value : Json F) : Handler := do
  let guild ← nestedEntityRef c value "guild"
  let user ← nestedEntityRef c value "user"
  done fun a => { a with members := a.members.erase (guild, user) }

def upsertMemberChunk (value : Json F) : Handler := do
  let members ← decode c.chunk value
  done fun a => members.foldl Account.insertMember a

def applyMemberListUpdate (value : Json F) : Handler := do
  let ops ← decode c.memberList value
  let members := (ops.filter fun op => op.1 = "SYNC").flatMap Prod.snd
  Action.write fun a => members.foldl Account.insertMember a
  pure { changed := !members.isEmpty }

def upsertPresence (value : Json F) : Handler := do
  let presence ← decode c.presence value
  done fun a => { a with presences := a.presences.insert presence.userKey presence }

def relationshipFailureMessage (code : String) : Option String :=
  match code with
  | "KAED_FED_RELATIONSHIP_REQUEST_QUOTA_EXCEEDED" =>
      some ("The receiving instance cannot accept another pending friend request right now. " ++
        "Your request was not delivered.")
  | "KAED_FED_IDENTITY_STORAGE_QUOTA_EXCEEDED" =>
      some ("The receiving instance cannot retain another remote account record, so your friend " ++
        "request was not delivered. Try again later or contact that instance's administrator.")
  | "KAED_FED_INSTANCE_STORAGE_QUOTA_EXCEEDED" =>
      some ("The receiving instance cannot retain another remote server record, so your friend " ++
        "request was not delivered. Try again later or contact that instance's administrator.")
  | "KAED_FED_DELIVERY_EXPIRED" =>
      some ("The remote instance did not accept this friend request before the delivery window " ++
        "ended. Try sending it again later.")
  | "KAED_FED_EVENT_TOO_LARGE" =>
      some "This friend request could not be sent because its federation event was too large."
  | _ => none

def Account.relate (a : Account) (update : RelationshipUpdate) : Account :=
  { a with
    users := a.users.insert update.user.key update.user
    relationships :=
      if update.kind = "none" then a.relationships.erase update.user.key
      else a.relationships.insert update.user.key { kind := update.kind, user := update.user } }

/-- What a resolved profile replaces besides channels and messages. -/
def Account.resolve (a : Account) (user : User) : Account :=
  { a with
    members := a.members.mapValues fun member =>
      if member.user.key = user.key then { member with user := user } else member
    relationships := a.relationships.mapValues fun relationship =>
      if relationship.user.key = user.key then { relationship with user := user }
      else relationship
    users := a.users.insert user.key user }

def upsertUserOrRelationship (value : Json F) : Handler :=
  match value.get? "relationship" with
  | some relationship => do
      let update ← decode c.relationshipUpdate relationship
      Action.write fun a => a.relate update
      pure { changed := true, userError := update.errorCode.bind relationshipFailureMessage }
  | none => do
      let user ← decode c.user value
      Action.write fun a => a.resolve user
      onState fun s => s.upsertUser user

def upsertReadState (value : Json F) : Handler := do
  let read ← decode c.readState value
  done fun a => { a with readStates := a.readStates.insert read.channelKey read }

def upsertEmoji (value : Json F) : Handler := do
  let emoji ← decode c.emoji value
  done fun a => { a with emojis := a.emojis.insert emoji.key emoji }

def removeEmoji (value : Json F) : Handler := do
  let key ← entityRef c value
  done fun a => { a with emojis := a.emojis.erase key }

/-! ## Voice and calls -/

/-- `entry(name).or_insert(value)`. -/
def orInsert (members : List (String × Json F)) (name : String) (value : Json F) :
    List (String × Json F) :=
  if (members.lookup name).isSome then members else members ++ [(name, value)]

/-- `insert(name, value)`. -/
def setMember (members : List (String × Json F)) (name : String) (value : Json F) :
    List (String × Json F) :=
  members.filter (fun m => m.1 ≠ name) ++ [(name, value)]

/-- The member is there and not null. -/
def present (members : List (String × Json F)) (name : String) : Bool :=
  (members.lookup name).any fun item => !item.isNull

/-- A participant of a snapshot, with the domains it leaves out. -/
def participantState (value : Json F) (channel : EntityRef) (participant : Json F) :
    Except ReduceError VoiceState := do
  let members ← match participant with
    | .obj members => .ok members
    | _ => .error (.missingField "voice participant")
  let members := orInsert members "channel_domain" (.str channel.domain.text)
  let members ← if present members "guild_id" then
      match (value.get? "guild_domain").or (value.get? "channel_domain") with
      | some domain => .ok (orInsert members "guild_domain" domain)
      | none => .error (.missingField "guild_domain")
    else .ok members
  match c.voiceState (.obj members) with
  | some voice => .ok voice
  | none => .error .payload

def Account.insertVoice (a : Account) (voice : VoiceState) : Account :=
  { a with voiceStates := a.voiceStates.insert voice.userKey voice }

def VoiceState.isIn (voice : VoiceState) (channel : EntityRef) : Bool :=
  voice.channelId = some channel.id ∧ voice.channelDomain = some channel.domain

def Account.leaveChannel (a : Account) (channel : EntityRef) : Account :=
  { a with voiceStates := a.voiceStates.retain fun voice => !voice.isIn channel }

/-- The loop of `replace_voice_snapshot`, once the channel was cleared. -/
def insertParticipants (value : Json F) (channel : EntityRef) : List (Json F) → Handler
  | [] => pure { changed := true }
  | participant :: participants => do
      let voice ← Action.ofExcept (participantState c value channel participant)
      Action.write fun a => a.insertVoice voice
      insertParticipants value channel participants

def replaceVoiceSnapshot (value : Json F) (participants : List (Json F)) : Handler := do
  let id ← field value "channel_id"
  let id ← decode c.snowflake id
  let domain ← field value "channel_domain"
  let domain ← decode c.domain domain
  Action.write fun a => a.leaveChannel ⟨id, domain⟩
  insertParticipants c value ⟨id, domain⟩ participants

def membersOf : Json F → List (String × Json F)
  | .obj members => members
  | _ => []

/-- A delta laid over the state it changes. -/
def mergeVoice (value : Json F) (current : List (String × Json F)) : List (String × Json F) :=
  let set := fun (members : List (String × Json F)) (m : String × Json F) =>
    setMember members m.1 m.2
  let members := (((value.get? "state").map membersOf).getD []).foldl set current
  let members := ((membersOf value).filter fun m =>
    m.1 ∉ ["state", "participants", "heartbeat", "generated_at"]).foldl set members
  let members := if present members "channel_id" then
      match (value.get? "channel_domain").or (value.get? "guild_domain") with
      | some domain => orInsert members "channel_domain" domain
      | none => members
    else members
  if present members "guild_id" then
    match (value.get? "guild_domain").or (value.get? "channel_domain") with
    | some domain => orInsert members "guild_domain" domain
    | none => members
  else members

/-- The members of a stored state, as it is written out. -/
def currentMembers (existing : Option VoiceState) :
    Action ReduceError Account (List (String × Json F)) :=
  match existing with
  | none => pure []
  | some voice =>
      match c.encodeVoiceState voice with
      | some value => pure (membersOf value)
      | none => .fail .payload

/-- The participant is gone: not connected, or in no channel. -/
def isTerminal (value : Json F) : Bool :=
  ((value.get? "connected").any fun item => item.isBool && !item.isTrue) ||
    ((value.get? "channel_id").any Json.isNull)

def updateVoice (value : Json F) : Handler := do
  let id ← field value "user_id"
  let id ← decode c.snowflake id
  let domain ← field value "user_domain"
  let domain ← decode c.domain domain
  let a ← Action.read
  let existing := a.voiceStates.lookup ⟨id, domain⟩
  if isTerminal value then
    Action.write fun a => { a with voiceStates := a.voiceStates.erase ⟨id, domain⟩ }
    pure { changed := existing.isSome }
  else if existing.isNone ∧ (value.get? "channel_id").isNone then pure {}
  else
    let current ← currentMembers c existing
    let voice ← decode c.voiceState (.obj (mergeVoice value current))
    done fun a => { a with voiceStates := a.voiceStates.insert ⟨id, domain⟩ voice }

def upsertVoice (value : Json F) : Handler :=
  match value.get? "participants" with
  | some (.arr participants) => replaceVoiceSnapshot c value participants
  | some _ => .fail (.missingField "voice participants")
  | none => updateVoice c value

def upsertCall (value : Json F) : Handler := do
  let call ← decode c.call value
  done fun a => { a with
    calls := if call.state = "ended" then a.calls.erase call.channelKey
      else a.calls.insert call.channelKey call }

def endCall (value : Json F) : Handler := do
  let call ← decode c.call value
  done fun a => { a with calls := a.calls.erase call.channelKey }

/-! ## Dispatch -/

structure GatewayEnvelope (F : Type) where
  s : Option Nat
  t : Option String
  d : Json F

def dispatch (now : Int) (event : String) (d : Json F) : Handler :=
  match event with
  | "READY" => ready c d
  | "RESUMED" => resumed c d
  | "VOICE_TOKEN" | "FEDERATION_PEER_STATUS" | "THREAD_MEMBER_UPDATE" | "THREAD_MEMBERS_UPDATE" =>
      pure { changed := true }
  | "ATTACHMENT_UPDATE" => updateAttachment c d
  | "DM_OPEN_REJECTED" => rejectDmOpen c d
  | "GUILD_MEMBERS_CHUNK" => upsertMemberChunk c d
  | "GUILD_MEMBER_LIST_UPDATE" => applyMemberListUpdate c d
  | "MESSAGE_CREATE" => upsertMessage c d
  | "MESSAGE_UPDATE" => updateMessage c d
  | "MESSAGE_DELETE" => deleteMessage c d
  | "MESSAGE_DELETE_BULK" => deleteMessagesBulk c d
  | "MESSAGE_REACTION_ADD" => updateReaction c true d
  | "MESSAGE_REACTION_REMOVE" => updateReaction c false d
  | "MESSAGE_REACTION_REMOVE_ALL" => clearReactions c false d
  | "MESSAGE_REACTION_REMOVE_EMOJI" => clearReactions c true d
  | "MESSAGE_PIN_UPDATE" | "CHANNEL_PINS_UPDATE" => updatePin c d
  | "MESSAGE_POLL_VOTE_ADD" => updatePollVote c true d
  | "MESSAGE_POLL_VOTE_REMOVE" => updatePollVote c false d
  | "CHANNEL_CREATE" | "CHANNEL_UPDATE" | "CHANNEL_ACCESS_GRANTED" => upsertChannel c d
  | "CHANNEL_PERMISSION_UPDATE" => updateChannelPermissions c d
  | "CHANNEL_DELETE" | "CHANNEL_ACCESS_REVOKED" => removeChannel c d
  | "THREAD_CREATE" | "THREAD_UPDATE" => upsertThread c d
  | "THREAD_DELETE" => removeThread c d
  | "THREAD_LIST_SYNC" => syncThreads c d
  | "GUILD_CREATE" | "GUILD_UPDATE" | "GUILD_AVAILABILITY_UPDATE" => upsertGuild c d
  | "GUILD_DELETE" => removeGuild c d
  | "GUILD_NAVIGATION_UPDATE" => pure {}
  | "GUILD_HISTORY_SYNC_UPDATE" => updateGuildHistorySync c d
  | "GUILD_ROLE_CREATE" | "GUILD_ROLE_UPDATE" => upsertRole c d
  | "GUILD_ROLE_DELETE" => removeRole c d
  | "GUILD_MEMBER_ADD" | "GUILD_MEMBER_UPDATE" => upsertMember c d
  | "GUILD_MEMBER_REMOVE" => removeMember c d
  | "PRESENCE_UPDATE" => upsertPresence c d
  | "TYPING_START" => upsertTyping c now d
  | "VOICE_STATE_UPDATE" | "VOICE_CHANNEL_MOVE" => upsertVoice c d
  | "READ_STATE_UPDATE" => upsertReadState c d
  | "USER_UPDATE" => upsertUserOrRelationship c d
  | "MESSAGE_SEND_REJECTED" => rejectMessage c d
  | "MESSAGE_DELIVERY_UPDATE" => updateDelivery c d
  | "GUILD_EMOJI_CREATE" => upsertEmoji c d
  | "GUILD_EMOJI_DELETE" => removeEmoji c d
  | "CALL_CREATE" | "CALL_RING" | "CALL_ACCEPT" | "CALL_DECLINE" => upsertCall c d
  | "CALL_END" => endCall c d
  | unknown => pure { unknownEvent := some unknown }

def Account.sequenced (a : Account) (sequence : Option Nat) : Account :=
  { a with state := { a.state with sequence } }

/-- The dispatch does not follow the one before. -/
def Account.gap (a : Account) (envelope : GatewayEnvelope F) : Bool :=
  envelope.s.any fun sequence => a.state.sequence.any fun current => sequence ≠ current + 1

def dispatchNamed (now : Int) (envelope : GatewayEnvelope F) : Handler :=
  match envelope.t with
  | none => pure {}
  | some event => dispatch c now event envelope.d

def reduce (now : Int) (envelope : GatewayEnvelope F) : Handler := do
  let a ← Action.read
  Action.write fun a => a.sequenced (envelope.s.or a.state.sequence)
  if a.gap envelope then pure { reconcileRequired := true }
  else dispatchNamed c now envelope

end

end Desktop

end Kaede
