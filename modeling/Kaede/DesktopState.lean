import Mathlib.Data.List.Dedup
import Mathlib.Data.List.Sort
import Mathlib.Data.Prod.Lex
import Mathlib.Data.String.Basic
import Kaede.Runs
import Kaede.Tables

/-!
# The desktop client's account state

`AppState` (`desktop/crates/kaede-core/src/reducer.rs`) holds what the
native client has loaded. Pages fetched over HTTP enter through the
`hydrate_*` functions, gateway dispatches through `reduce`. The part
modelled here is the one about channels and messages: the channel map and
the set of channels the account lost access to, the message map, the
per-channel message order with its retention limit, optimistic sends, and
the guild rows that bring channels along.

A gateway payload is modelled as what decoding returns for it. The events
about other tables (roles, members, presences, typing, voice, calls, read
states, relationships, emojis) leave this part alone.
-/

namespace Kaede

namespace Desktop

/-- `MAX_MESSAGES_PER_CHANNEL`. -/
def maxMessagesPerChannel : Nat := 2000

/-- `MAX_SNOWFLAKE`. -/
def maxSnowflake : Nat := 9223372036854775807

/-- What `Snowflake::new` lets through. -/
structure Snowflake where
  value : Nat
  le_max : value ≤ maxSnowflake
deriving DecidableEq, Repr

def domainLabel (label : List Char) : Bool :=
  label ≠ [] && label.length ≤ 63 && label.head? ≠ some '-' && label.getLast? ≠ some '-' &&
    label.all fun c => c.isLower || c.isDigit || c = '-'

/-- What `Domain::parse` makes of a name: labels of lower case letters. -/
structure Domain where
  text : String
  normal : text.length ≤ 253 ∧ (text.toList.splitOn '.').all domainLabel = true
deriving DecidableEq, Repr

structure EntityRef where
  id : Snowflake
  domain : Domain
deriving DecidableEq, Repr

/-- The domain of the samples. -/
def sampleDomain : Domain := ⟨"chat.example", by decide⟩

structure User where
  key : EntityRef
  profile : String := ""
deriving DecidableEq, Repr

structure Attachment where
  key : EntityRef
  state : String
deriving DecidableEq, Repr

structure PollAnswer where
  id : Nat
  count : Nat
  meVoted : Bool
deriving DecidableEq, Repr

/-- A poll; `none` when it has no `results.answer_counts`. -/
structure Poll where
  answerCounts : Option (List PollAnswer)
deriving DecidableEq, Repr

structure Message where
  key : EntityRef
  channelKey : EntityRef
  createdAt : Int
  author : Option User := none
  content : String := ""
  clientNonce : Option String := none
  attachments : List Attachment := []
  reactionCounts : List (String × Nat) := []
  reactedEmoji : List String := []
  pinned : Bool := false
  pinnedAt : Option Int := none
  poll : Option Poll := none
  flags : Nat := 0
  deliveryStatus : Option String := none
  deliveryErrorCode : Option String := none
deriving DecidableEq, Repr

structure Channel where
  key : EntityRef
  guildKey : Option EntityRef := none
  permissions : Nat := 0
  recipients : List User := []
deriving DecidableEq, Repr

/-- The history synchronisation columns of a guild. -/
structure HistorySync where
  status : Option String := none
  errorCode : Option String := none
  retryAfterMs : Option Nat := none
  resource : Option String := none
deriving DecidableEq, Repr

structure Guild where
  key : EntityRef
  channels : List Channel := []
  historySync : HistorySync := {}
deriving DecidableEq, Repr

inductive PendingMessageState where
  | sending
  | queued
  | failed
deriving DecidableEq, Repr

structure PendingMessage where
  channel : EntityRef
  clientNonce : String
  state : PendingMessageState
  failureReason : Option String := none
deriving DecidableEq, Repr

structure AppState where
  sequence : Option Nat := none
  currentUser : Option User := none
  guilds : Table EntityRef Guild := ∅
  channels : Table EntityRef Channel := ∅
  messages : Table EntityRef Message := ∅
  linkPreviews : Table EntityRef String := ∅
  pendingMessages : Table String PendingMessage := ∅
  messageOrder : Table EntityRef (List EntityRef) := ∅
  inaccessibleChannels : List EntityRef := []

structure Reduction where
  changed : Bool := false
  reconcileRequired : Bool := false
  purgeChannels : List EntityRef := []
  unknownEvent : Option String := none
  userError : Option String := none
deriving DecidableEq, Repr

inductive ReduceError where
  | payload
  | missingField (name : String)
deriving DecidableEq, Repr

/-- What a handler leaves behind and what it reports; an error keeps what
was written before it. -/
abbrev Handled := AppState × Except ReduceError Reduction

def changed (s : AppState) : Handled := (s, .ok { changed := true })

namespace AppState

/-- The keys listed for a channel. -/
def order (s : AppState) (channel : EntityRef) : List EntityRef :=
  (s.messageOrder.lookup channel).getD []

def channelMessages (s : AppState) (channel : EntityRef) : List Message :=
  (s.order channel).filterMap fun key => s.messages.lookup key

/-! ## Hydration -/

def hydrateChannels (s : AppState) (channels : List Channel) : AppState :=
  { s with channels := s.channels.insertAll Channel.key channels }

/-- The row stored for a guild: without a history status of its own it
keeps the stored one's. -/
def storedGuild (s : AppState) (guild : Guild) : Guild :=
  { guild with
    channels := []
    historySync :=
      if guild.historySync.status = none then
        ((s.guilds.lookup guild.key).map Guild.historySync).getD guild.historySync
      else guild.historySync }

def hydrateGuild (s : AppState) (guild : Guild) : AppState :=
  { s.hydrateChannels guild.channels with
    guilds := s.guilds.insert guild.key (s.storedGuild guild) }

def hydrateGuilds (s : AppState) (guilds : List Guild) : AppState := guilds.foldl hydrateGuild s

inductive MessageWindowEdge where
  | newest
  | oldest
deriving DecidableEq, Repr

/-- What the order of a channel is sorted by. -/
def position (messages : Table EntityRef Message) (key : EntityRef) : Int ×ₗ Nat ×ₗ String :=
  toLex (((messages.lookup key).map Message.createdAt).getD 0,
    toLex (key.id.value, key.domain.text))

def sortKeys (messages : Table EntityRef Message) (keys : List EntityRef) : List EntityRef :=
  keys.insertionSort fun left right => position messages left ≤ position messages right

/-- The keys that go and the keys that stay when an order is cut to the
retention limit. -/
def cutWindow (order : List EntityRef) : MessageWindowEdge → List EntityRef × List EntityRef
  | .newest => order.splitAt (order.length - maxMessagesPerChannel)
  | .oldest => (order.splitAt maxMessagesPerChannel).swap

/-- The sorted candidates for a channel's order. -/
def windowKeys (s : AppState) (channel : EntityRef) (incoming : List Message) : List EntityRef :=
  let stored := s.messages.insertAll Message.key incoming
  sortKeys stored ((s.order channel ++ incoming.map Message.key).dedup.filter fun key =>
    (stored.lookup key).any fun message => message.channelKey = channel)

def mergeMessageWindow (s : AppState) (channel : EntityRef) (incoming : List Message)
    (edge : MessageWindowEdge) : AppState :=
  if channel ∈ s.inaccessibleChannels then s
  else
    let window := cutWindow (s.windowKeys channel incoming) edge
    { s with
      messages := Table.eraseAll window.1 (s.messages.insertAll Message.key incoming)
      messageOrder := s.messageOrder.insert channel window.2 }

def hydrateMessages (s : AppState) (channel : EntityRef) (incoming : List Message) : AppState :=
  s.mergeMessageWindow channel incoming .newest

def hydrateOlderMessages (s : AppState) (channel : EntityRef) (incoming : List Message) :
    AppState :=
  s.mergeMessageWindow channel incoming .oldest

/-! ## Optimistic sends -/

def enqueueMessage (s : AppState) (pending : PendingMessage) : AppState :=
  { s with pendingMessages := s.pendingMessages.insert pending.clientNonce pending }

def setPending (s : AppState) (nonce : String) (f : PendingMessage → PendingMessage) : AppState :=
  { s with pendingMessages := s.pendingMessages.modify nonce f }

def markMessageQueued (s : AppState) (nonce : String) : AppState :=
  s.setPending nonce fun pending => { pending with state := .queued }

def failMessage (s : AppState) (nonce reason : String) : AppState :=
  s.setPending nonce fun pending => { pending with state := .failed, failureReason := some reason }

def retryMessage (s : AppState) (nonce : String) : AppState :=
  s.setPending nonce fun pending => { pending with state := .sending, failureReason := none }

/-! ## Messages -/

/-- The order of a live message's channel, with the message in it. -/
def listedWith (s : AppState) (message : Message) : List EntityRef :=
  if message.key ∈ s.order message.channelKey then s.order message.channelKey
  else s.order message.channelKey ++ [message.key]

def upsertMessage (s : AppState) (message : Message) : Handled :=
  if message.channelKey ∈ s.inaccessibleChannels then (s, .ok {})
  else
    let window := cutWindow (s.listedWith message) .newest
    changed { s with
      pendingMessages :=
        match message.clientNonce with
        | some nonce => s.pendingMessages.erase nonce
        | none => s.pendingMessages
      messages := Table.eraseAll window.1 (s.messages.insert message.key message)
      messageOrder := s.messageOrder.insert message.channelKey window.2 }

def setPinned (pinned : Bool) (message : Message) : Message :=
  { message with pinned := pinned, pinnedAt := if pinned then message.pinnedAt else none }

/-- `MESSAGE_UPDATE` without a complete message; `pinned` is `some none`
when it is there and not a boolean. -/
def updateMessagePin (s : AppState) (key : EntityRef) (pinned : Option (Option Bool)) : Handled :=
  let present := (s.messages.lookup key).isSome
  match present, pinned with
  | true, some none => (s, .error .payload)
  | true, some (some pinned) =>
      changed { s with messages := s.messages.modify key (setPinned pinned) }
  | _, _ => (s, .ok { changed := present, reconcileRequired := !present })

def deleteMessage (s : AppState) (key : EntityRef) : Handled :=
  changed { s with
    messages := s.messages.erase key
    linkPreviews := s.linkPreviews.erase key
    messageOrder := s.messageOrder.mapValues fun order => order.filter (· ≠ key) }

def deleteListed (s : AppState) (channel key : EntityRef) : AppState :=
  { s with
    messages := s.messages.erase key
    linkPreviews := s.linkPreviews.erase key
    messageOrder := s.messageOrder.modify channel fun order => order.filter (· ≠ key) }

/-- The loop of `delete_messages_bulk`: a message of another channel ends
it, and what was deleted before stays deleted. -/
def deleteMessagesBulk (s : AppState) (channel : EntityRef) (wasChanged : Bool) :
    List EntityRef → Handled
  | [] => (s, .ok { changed := wasChanged })
  | key :: keys =>
      if (s.messages.lookup key).any fun message => message.channelKey ≠ channel then
        (s, .error (.missingField "bulk delete message/channel linkage"))
      else
        (s.deleteListed channel key).deleteMessagesBulk channel
          (wasChanged || (s.messages.lookup key).isSome) keys

/-! ## Edits of a stored message -/

def editMessage (s : AppState) (key : EntityRef) (f : Message → Except ReduceError Message) :
    Handled :=
  match s.messages.lookup key with
  | none => (s, .ok {})
  | some message =>
      match f message with
      | .error e => (s, .error e)
      | .ok edited => changed { s with messages := s.messages.modify key fun _ => edited }

/-- The largest `u64`. -/
def maxU64 : Nat := 18446744073709551615

def setCount (counts : List (String × Nat)) (reaction : String) (count : Nat) :
    List (String × Nat) :=
  (reaction, count) :: counts.filter fun entry => entry.1 ≠ reaction

def reactedMessage (s : AppState) (added : Bool) (user : EntityRef) (reaction : String)
    (message : Message) : Message :=
  let count := (message.reactionCounts.lookup reaction).getD 0
  let others := message.reactedEmoji.filter (· ≠ reaction)
  { message with
    reactionCounts :=
      if added then setCount message.reactionCounts reaction (min (count + 1) maxU64)
      else if count ≤ 1 then message.reactionCounts.filter fun entry => entry.1 ≠ reaction
      else setCount message.reactionCounts reaction (count - 1)
    reactedEmoji :=
      if s.currentUser.map User.key = some user then
        if added then others ++ [reaction] else others
      else message.reactedEmoji }

def updateReaction (s : AppState) (added : Bool) (key user : EntityRef) (reaction : String) :
    Handled :=
  if reaction = "" then (s, .error (.missingField "reaction"))
  else s.editMessage key fun message => .ok (s.reactedMessage added user reaction message)

/-- `clear_reactions`, of every emoji or of the one named. -/
def clearReactions (s : AppState) (key : EntityRef) (reaction : Option (Option String)) : Handled :=
  s.editMessage key fun message =>
    match reaction with
    | none => .ok { message with reactionCounts := [], reactedEmoji := [] }
    | some none | some (some "") => .error (.missingField "reaction")
    | some (some reaction) => .ok { message with
        reactionCounts := message.reactionCounts.filter fun entry => entry.1 ≠ reaction
        reactedEmoji := message.reactedEmoji.filter (· ≠ reaction) }

/-- `update_pin`; no key when the payload names no message. -/
def updatePin (s : AppState) (key : Option EntityRef) (channel : Option EntityRef)
    (pinned : Option (Option Bool)) : Handled :=
  match key with
  | none => (s, .ok {})
  | some key => s.editMessage key fun message =>
      if channel.any fun channel => message.channelKey ≠ channel then
        .error (.missingField "pin message/channel linkage")
      else
        match pinned with
        | some none => .error .payload
        | some (some pinned) => .ok (setPinned pinned message)
        | none => .ok (setPinned message.pinned message)

def votedAnswer (s : AppState) (added : Bool) (user : EntityRef) (answer : PollAnswer) :
    PollAnswer :=
  { answer with
    count := if added then min (answer.count + 1) maxU64 else answer.count - 1
    meVoted := if s.currentUser.map User.key = some user then added else answer.meVoted }

def votedPoll (s : AppState) (added : Bool) (user : EntityRef) (answerId : Nat) (poll : Poll) :
    Except ReduceError Poll :=
  match poll.answerCounts with
  | none => .error (.missingField "poll results.answer_counts")
  | some counts =>
      match counts.findIdx? fun answer => answer.id = answerId with
      | none => .error (.missingField "poll answer count")
      | some index => .ok ⟨some (counts.modify index (s.votedAnswer added user))⟩

def updatePollVote (s : AppState) (added : Bool) (key user : EntityRef) (answerId : Nat) :
    Handled :=
  if answerId = 0 then (s, .error (.missingField "positive answer_id"))
  else
    match (s.messages.lookup key).bind Message.poll with
    | none => (s, .ok {})
    | some poll =>
        match s.votedPoll added user answerId poll with
        | .error e => (s, .error e)
        | .ok poll =>
            changed { s with
              messages := s.messages.modify key fun message =>
                { message with poll := some poll } }

def rejectionReason (code : String) (reason : Option String) : String :=
  reason.getD <|
    match code with
    | "MEMBER_TIMED_OUT" => "You are timed out in this guild."
    | "MISSING_PERMISSIONS" | "FORBIDDEN" => "You no longer have permission to send messages here."
    | "KAED_FED_IDENTITY_STORAGE_QUOTA_EXCEEDED" | "FEDERATION_IDENTITY_STORAGE_QUOTA_EXCEEDED" =>
        "The receiving instance cannot retain another remote account record, so this message " ++
          "was not delivered. Try again later or contact that instance’s administrator."
    | "KAED_FED_INSTANCE_STORAGE_QUOTA_EXCEEDED" | "FEDERATION_INSTANCE_STORAGE_QUOTA_EXCEEDED" =>
        "The receiving instance cannot retain another remote server namespace, so this message " ++
          "was not delivered. Try again later or contact that instance’s administrator."
    | _ => "The remote instance rejected this message."

def deliveryFailureMessage (code : String) : Option String :=
  match code with
  | "KAED_FED_DM_STORAGE_QUOTA_EXCEEDED" | "FEDERATED_DM_STORAGE_QUOTA_EXCEEDED" =>
      some ("The receiving instance reached its direct-message storage limit, so this message " ++
        "was not delivered. Retry later; if it continues, contact that instance's administrator.")
  | "KAED_FED_INBOX_QUOTA_EXCEEDED" =>
      some ("The receiving instance reached its temporary federation-event limit, so this " ++
        "message was not delivered. Retry later.")
  | "KAED_FED_OUTBOX_CAPACITY_EXCEEDED" =>
      some ("The receiving instance's outbound federation queue is full. Kaede will retry after " ++
        "queued work clears.")
  | "KAED_FED_REPLICA_QUOTA_EXCEEDED" =>
      some ("The receiving instance paused this remote conversation because its replica cache " ++
        "is full. Retry later or contact that instance's administrator.")
  | "KAED_FED_IDENTITY_STORAGE_QUOTA_EXCEEDED" | "FEDERATION_IDENTITY_STORAGE_QUOTA_EXCEEDED" =>
      some ("The receiving instance reached its remote-account storage limit, so this message " ++
        "was not delivered. Retry later or contact that instance's administrator.")
  | "KAED_FED_INSTANCE_STORAGE_QUOTA_EXCEEDED" | "FEDERATION_INSTANCE_STORAGE_QUOTA_EXCEEDED" =>
      some ("The receiving instance reached its remote-server storage limit, so this message " ++
        "was not delivered. Retry later or contact that instance's administrator.")
  | "KAED_FED_DELIVERY_EXPIRED" =>
      some ("The remote instance did not accept this message before the delivery window ended. " ++
        "Try sending it again later.")
  | "KAED_FED_EVENT_TOO_LARGE" =>
      some ("This message is too large to send between instances. Reduce its size before trying " ++
        "again.")
  | _ => none

/-- `1 << 63`, the flag of a message whose delivery failed. -/
def failedFlag : Nat := 9223372036854775808

def deliveredMessage (status : String) (code : Option String) (message : Message) : Message :=
  { message with
    deliveryStatus := some status
    deliveryErrorCode := if status = "failed" ∨ status = "retrying" then code else none
    flags := if code.isSome ∧ status = "failed" then message.flags ||| failedFlag
      else message.flags }

def updateDelivery (s : AppState) (key : EntityRef) (status : String) (code : Option String) :
    Handled :=
  ({ s with messages := s.messages.modify key (deliveredMessage status code) },
    .ok { changed := true
          userError := if status = "failed" then code.bind deliveryFailureMessage else none })

def attachedMessage (attachment : Attachment) (message : Message) : Message :=
  { message with
    attachments :=
      match message.attachments.findIdx? fun candidate => candidate.key = attachment.key with
      | some index => message.attachments.set index attachment
      | none => message.attachments ++ [attachment] }

def updateAttachment (s : AppState) (key : EntityRef) (attachment : Attachment) : Handled :=
  s.editMessage key fun message => .ok (attachedMessage attachment message)

/-- A resolved profile replaces every projection of that user. -/
def upsertUser (s : AppState) (user : User) : Handled :=
  changed { s with
    currentUser := if s.currentUser.map User.key = some user.key then some user else s.currentUser
    messages := s.messages.mapValues fun message =>
      if message.author.map User.key = some user.key then { message with author := some user }
      else message
    channels := s.channels.mapValues fun channel =>
      { channel with
        recipients := channel.recipients.map fun recipient =>
          if recipient.key = user.key then user else recipient } }

/-! ## Channels and guilds -/

def upsertChannel (s : AppState) (channel : Channel) : Handled :=
  changed { s with
    inaccessibleChannels := s.inaccessibleChannels.filter (· ≠ channel.key)
    channels := s.channels.insert channel.key channel }

def updateChannelPermissions (s : AppState) (key : EntityRef) (permissions : Nat) : Handled :=
  match s.channels.lookup key with
  | none => (s, .ok {})
  | some _ => changed { s with
      channels := s.channels.modify key fun channel => { channel with permissions := permissions } }

def syncThreads (s : AppState) (threads : List Channel) : Handled :=
  (s.hydrateChannels threads, .ok { changed := !threads.isEmpty })

def removeChannelState (s : AppState) (key : EntityRef) : AppState :=
  { s with
    channels := s.channels.erase key
    inaccessibleChannels := s.inaccessibleChannels.insert key
    pendingMessages := s.pendingMessages.retain fun pending => pending.channel ≠ key
    messageOrder := s.messageOrder.erase key
    messages := s.messages.eraseAll (s.order key)
    linkPreviews := s.linkPreviews.eraseAll (s.order key) }

def removeChannel (s : AppState) (key : EntityRef) : Handled :=
  (s.removeChannelState key, .ok { changed := true, purgeChannels := [key] })

def upsertGuild (s : AppState) (guild : Guild) : Handled := changed (s.hydrateGuilds [guild])

def syncedHistory (status : String) (code : Option String) (retryAfterMs : Option Nat)
    (resource : Option String) : HistorySync where
  status := some status
  errorCode := if status = "ready" then none else code
  retryAfterMs := if status = "retrying" then retryAfterMs else none
  resource := if status = "failed" then resource else none

def updateGuildHistorySync (s : AppState) (key : EntityRef) (status : String)
    (code : Option String) (retryAfterMs : Option Nat) (resource : Option String) : Handled :=
  if status ∉ ["syncing", "retrying", "ready", "failed"] then
    (s, .error (.missingField "valid guild history sync status"))
  else
    match s.guilds.lookup key with
    | none => (s, .ok {})
    | some _ => changed { s with
        guilds := s.guilds.modify key fun guild =>
          { guild with historySync := syncedHistory status code retryAfterMs resource } }

def guildChannels (s : AppState) (key : EntityRef) : List EntityRef :=
  (s.channels.values.filter fun channel => channel.guildKey = some key).map Channel.key

def removeGuild (s : AppState) (key : EntityRef) : Handled :=
  let channels := s.guildChannels key
  (channels.foldl removeChannelState { s with guilds := s.guilds.erase key },
    .ok { changed := true, purgeChannels := channels })

end AppState

/-! ## Gateway events -/

/-- `READY`, without the presences and read states. -/
structure Ready where
  user : User
  guilds : List Guild
  dmChannels : List Channel
deriving DecidableEq, Repr

/-- A decoded gateway dispatch. One constructor serves the event names that
share a handler. -/
inductive Event where
  | ready (payload : Ready)
  | attachmentUpdate (key : EntityRef) (attachment : Attachment)
  | messageCreate (message : Message)
  | messageUpdate (message : Message)
  | messageUpdatePin (key : EntityRef) (pinned : Option (Option Bool))
  | messageDelete (key : EntityRef)
  | messageDeleteBulk (channel : EntityRef) (keys : List EntityRef)
  | messageReaction (added : Bool) (key user : EntityRef) (reaction : String)
  | messageReactionClear (key : EntityRef) (reaction : Option (Option String))
  | messagePinUpdate (key channel : Option EntityRef) (pinned : Option (Option Bool))
  | messagePollVote (added : Bool) (key user : EntityRef) (answerId : Nat)
  | channelUpsert (channel : Channel)
  | channelPermissionUpdate (key : EntityRef) (permissions : Nat)
  | channelRemove (key : EntityRef)
  | threadListSync (threads : List Channel)
  | guildUpsert (guild : Guild)
  | guildDelete (key : EntityRef)
  | guildHistorySyncUpdate (key : EntityRef) (status : String) (code : Option String)
      (retryAfterMs : Option Nat) (resource : Option String)
  | userUpdate (user : User)
  | messageSendRejected (nonce code : String) (reason : Option String)
  | messageDeliveryUpdate (key : EntityRef) (status : String) (code : Option String)
  | unrelated (result : Except ReduceError Reduction)
  | unknown (name : String)
  | malformed (error : ReduceError)

/-- A gateway envelope; no event is an envelope without a name. -/
structure Envelope where
  s : Option Nat
  event : Option Event

namespace AppState

def ready (s : AppState) (payload : Ready) : Handled :=
  let identified := { s with currentUser := some payload.user }
  changed ((identified.hydrateGuilds payload.guilds).hydrateChannels payload.dmChannels)

def handle (s : AppState) : Event → Handled
  | .ready payload => s.ready payload
  | .attachmentUpdate key attachment => s.updateAttachment key attachment
  | .messageCreate message => s.upsertMessage message
  -- a complete payload is stored like a new message
  | .messageUpdate message => s.upsertMessage message
  | .messageUpdatePin key pinned => s.updateMessagePin key pinned
  | .messageDelete key => s.deleteMessage key
  | .messageDeleteBulk channel keys => s.deleteMessagesBulk channel false keys
  | .messageReaction added key user reaction => s.updateReaction added key user reaction
  | .messageReactionClear key reaction => s.clearReactions key reaction
  | .messagePinUpdate key channel pinned => s.updatePin key channel pinned
  | .messagePollVote added key user answerId => s.updatePollVote added key user answerId
  | .channelUpsert channel => s.upsertChannel channel
  | .channelPermissionUpdate key permissions => s.updateChannelPermissions key permissions
  | .channelRemove key => s.removeChannel key
  | .threadListSync threads => s.syncThreads threads
  | .guildUpsert guild => s.upsertGuild guild
  | .guildDelete key => s.removeGuild key
  | .guildHistorySyncUpdate key status code retryAfterMs resource =>
      s.updateGuildHistorySync key status code retryAfterMs resource
  | .userUpdate user => s.upsertUser user
  | .messageSendRejected nonce code reason =>
      changed (s.failMessage nonce (rejectionReason code reason))
  | .messageDeliveryUpdate key status code => s.updateDelivery key status code
  | .unrelated result => (s, result)
  | .unknown name => (s, .ok { unknownEvent := some name })
  | .malformed error => (s, .error error)

/-- A gap in the sequence drops the event and asks for a reconciliation. -/
def reduce (s : AppState) (envelope : Envelope) : Handled :=
  match envelope.s with
  | some sequence =>
      if s.sequence.any fun current => sequence ≠ current + 1 then
        ({ s with sequence := some sequence }, .ok { reconcileRequired := true })
      else
        match envelope.event with
        | some event => { s with sequence := some sequence }.handle event
        | none => ({ s with sequence := some sequence }, .ok {})
  | none =>
      match envelope.event with
      | some event => s.handle event
      | none => (s, .ok {})

/-- The event that is handled. -/
def accepted (s : AppState) (envelope : Envelope) : Option Event :=
  match envelope.s with
  | some sequence =>
      if s.sequence.any fun current => sequence ≠ current + 1 then none else envelope.event
  | none => envelope.event

end AppState

/-! ## Runs -/

inductive Input where
  | hydrateIdentity (user : User)
  | hydrateGuilds (guilds : List Guild)
  | hydrateChannels (channels : List Channel)
  | hydrateMessages (channel : EntityRef) (messages : List Message)
  | hydrateOlderMessages (channel : EntityRef) (messages : List Message)
  /-- `hydrate_settings` and `hydrate_read_states`. -/
  | hydrateUnrelated
  | enqueueMessage (pending : PendingMessage)
  | markMessageQueued (nonce : String)
  | failMessage (nonce reason : String)
  | retryMessage (nonce : String)
  | reduce (envelope : Envelope)

def AppState.step (s : AppState) : Input → Option AppState
  | .hydrateIdentity user => some { s with currentUser := some user }
  | .hydrateGuilds guilds => some (s.hydrateGuilds guilds)
  | .hydrateChannels channels => some (s.hydrateChannels channels)
  | .hydrateMessages channel messages => some (s.hydrateMessages channel messages)
  | .hydrateOlderMessages channel messages => some (s.hydrateOlderMessages channel messages)
  | .hydrateUnrelated => some s
  | .enqueueMessage pending => some (s.enqueueMessage pending)
  | .markMessageQueued nonce => some (s.markMessageQueued nonce)
  | .failMessage nonce reason => some (s.failMessage nonce reason)
  | .retryMessage nonce => some (s.retryMessage nonce)
  | .reduce envelope => some (s.reduce envelope).1

end Desktop

end Kaede
