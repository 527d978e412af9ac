import Kaede.ConversationReplica
import Kaede.Runs
import Kaede.Tables

/-!
# The replica of a guild

A guild lives on one instance, its authority. An instance with members of the
guild keeps a replica, fed by the authority's numbered events, by pages of
retained events, and by snapshots of the whole
(`backend/app/federation/guilds.py`). Here is the replica of one guild, with
the part of it that says who belongs to it and what its threads count.

Every operation holds the row of the guild for its whole transaction, so one
operation is one step. An operation that raises is rolled back and leaves the
replica as it was: it is `none` here. Checks of a payload that read nothing of
the replica (the length of a name, a mask, a time stamp) are one Boolean of the
payload.

A member's profile is normalised when it is parsed, and the parsed profile is
what is stored. The snapshot is also compared with the replica by the strings
on the wire. Both are kept apart here.
-/

namespace Kaede

namespace GuildMirror

open Replication (normalizeDomain)

/-! ## Rows -/

/-- `REMOTE_GUILD_DEPARTED` and `REMOTE_GUILD_JOINING`. -/
inductive Intent where
  | departed
  | joining
deriving DecidableEq, Repr

structure Channel where
  /-- The type is one of 10, 11 and 12. -/
  thread : Bool := false
  unavailable : Bool := false
  messageCount : Nat := 0
  totalMessageSent : Nat := 0
  memberCount : Nat := 0
  starter : Option Nat := none
deriving DecidableEq, Repr

structure Member where
  nickname : Option String := none
  temporary : Bool := false
  timeoutUntil : Option Nat := none
  version : Nat := 1
deriving DecidableEq, Repr

structure ThreadMember where
  flags : Nat := 0
  notificationLevel : String := "inherit"
deriving DecidableEq, Repr

structure Message where
  channel : Nat
  author : UserRef
  createdAt : Nat := 0
  /-- The other columns that the fingerprint of a create covers. -/
  body : String := ""
  deleted : Bool := false
  /-- It is under a safety review, or was removed by one. -/
  safety : Option String := none
  localAttachment : Bool := false
deriving DecidableEq, Repr

inductive Target where
  | role (id : Nat)
  | member (user : UserRef)
deriving DecidableEq, Repr

/-- Channels, roles and messages have the origin of the guild, so their ids
name them. -/
structure Replica where
  id : Nat
  owner : UserRef
  lastEventSeq : Nat := 0
  evictedThrough : Nat := 0
  roles : List Nat := []
  channels : Table Nat Channel := ∅
  members : Table UserRef Member := ∅
  memberRoles : List (UserRef × Nat) := []
  overwrites : List (Nat × Target) := []
  threadMembers : Table (Nat × UserRef) ThreadMember := ∅
  messages : Table Nat Message := ∅
  intents : Table UserRef Intent := ∅

namespace Replica

def isMember (s : Replica) (u : UserRef) : Bool := (s.members.lookup u).isSome

/-- The rows that refer to a member go with it. -/
def removeMembers (s : Replica) (gone : UserRef → Bool) : Replica :=
  { s with
    members := s.members.keep fun u => !gone u
    memberRoles := s.memberRoles.filter fun r => !gone r.1
    overwrites := s.overwrites.filter fun o =>
      match o.2 with
      | .member u => !gone u
      | .role _ => true
    threadMembers := s.threadMembers.keep fun k => !gone k.2 }

/-- `purge_replicated_channel_cache`. -/
def purgeChannel (s : Replica) (id : Nat) : Replica :=
  { s with
    messages := s.messages.retain fun m =>
      m.channel ≠ id || m.safety.isSome || m.localAttachment
    channels := s.channels.modify id fun c => { c with unavailable := true } }

/-- `mark_remote_guild_departed`. -/
def markDeparted (s : Replica) (u : UserRef) : Replica :=
  { s with intents := s.intents.insert u .departed }

def markAllDeparted (s : Replica) (us : List UserRef) : Replica := us.foldl markDeparted s

/-- The keys of the table that are users of this instance. -/
def localMembers (s : Replica) (domain : String) : List UserRef :=
  s.members.keys.filter fun u => u.domain = domain

end Replica

/-! ## Events -/

/-- A user as a payload names it. -/
structure WireUser where
  id : Nat
  originDomain : String
deriving DecidableEq, Repr

/-- The strings of the payload. -/
def WireUser.raw (u : WireUser) : UserRef := ⟨u.id, u.originDomain⟩

/-- The reference of the parsed profile. -/
def WireUser.ref (u : WireUser) : Option UserRef :=
  (normalizeDomain u.originDomain).toOption.map fun d => ⟨u.id, d⟩

structure MessageEvent where
  seq : Nat
  id : Nat
  channel : Nat
  author : UserRef
  createdAt : Nat := 0
  body : String := ""
  safety : Option String := none
  crosspost : Bool := false
  pollResult : Bool := false
  threadStarter : Bool := false
  valid : Bool := true
deriving DecidableEq, Repr

structure MemberEvent where
  seq : Nat
  user : WireUser
  roles : List Nat := []
  temporary : Bool := false
  /-- `resolve_delegated_profile` finds or makes the user's row. -/
  resolves : Bool := true
  valid : Bool := true
deriving DecidableEq, Repr

inductive Mutation where
  /-- The owner, if the payload names one. -/
  | guildUpdate (owner : Option UserRef)
  | channelUpsert (create : Bool) (id : Nat) (channel : Channel) (owner : UserRef)
  | channelDelete (id : Nat)
  | threadMemberUpsert (thread : Nat) (user : UserRef) (row : ThreadMember)
      (memberCount : Option Nat)
  | threadMemberDelete (thread : Nat) (user : UserRef) (memberCount : Option Nat)
  | roleUpsert (id : Nat)
  | roleDelete (id : Nat)
  | overwriteUpsert (channel : Nat) (target : Target) (allow deny : Nat)
  | overwriteDelete (channel : Nat) (target : Target)
  | memberUpdate (user : UserRef) (row : Member)
  | memberRemove (user : UserRef)
  | membersOriginRemove (domain : String)
  | memberRoleAdd (user : UserRef) (role version : Nat)
  | memberRoleRemove (user : UserRef) (role version : Nat)
  /-- `released` says that the payload has a safety state, which is null. A
  marker of a thread or a publication has no body. -/
  | messageUpdate (id : Nat) (safety : Option String) (released : Bool) (body : Option String)
  | messageDelete (id : Nat) (removed : Bool)
  | messageBulkDelete (channel : Nat) (ids : List Nat)
  | messagePurge (author : UserRef) (createdAfter : Nat)
  /-- The events of reactions, polls, pins, bans, stages, trackers and the like,
  which write tables that are not kept here. -/
  | other
deriving DecidableEq, Repr

structure MutationEvent where
  seq : Nat
  mutation : Mutation
  /-- `guild_event_requires_snapshot`. -/
  requiresSnapshot : Bool := false
  valid : Bool := true
deriving DecidableEq, Repr

inductive Event where
  | message (e : MessageEvent)
  | member (e : MemberEvent)
  | redaction (seq : Nat) (requiresSnapshot valid : Bool)
  | mutation (e : MutationEvent)
deriving DecidableEq, Repr

def Event.seq : Event → Nat
  | .message e => e.seq
  | .member e => e.seq
  | .redaction seq _ _ => seq
  | .mutation e => e.seq

/-! ## Messages -/

/-- The sequence number an accepted event leaves behind. -/
def Replica.advance (s : Replica) (seq : Nat) : Replica := { s with lastEventSeq := seq }

def MessageEvent.row (e : MessageEvent) : Message where
  channel := e.channel
  author := e.author
  createdAt := e.createdAt
  body := e.body
  safety := e.safety

/-- The columns of `replicated_message_create_fingerprint`. -/
def Message.fingerprint (m : Message) : Nat × UserRef × Nat × String :=
  (m.channel, m.author, m.createdAt, m.body)

/-- A message makes its author a member of the thread. The row refers to a
member of the guild. -/
def joinThread (s : Replica) (e : MessageEvent) (c : Channel) : Option Replica :=
  if (s.threadMembers.lookup (e.channel, e.author)).isSome ∨ ¬ c.memberCount < 1000 then
    some { s with channels := s.channels.insert e.channel c }
  else if s.isMember e.author then
    some { s with
      threadMembers := s.threadMembers.insert (e.channel, e.author) {}
      channels := s.channels.insert e.channel { c with memberCount := c.memberCount + 1 } }
  else
    none

/-- What a stored message changes on its channel. -/
def countMessage (s : Replica) (e : MessageEvent) (c : Channel) : Option Replica :=
  if c.thread then
    if e.threadStarter then
      if c.starter = none ∨ c.starter = some e.id then
        joinThread s e { c with starter := some e.id }
      else
        none
    else
      joinThread s e
        { c with messageCount := c.messageCount + 1, totalMessageSent := c.totalMessageSent + 1 }
  else
    some s

def MessageEvent.stale (e : MessageEvent) (s : Replica) : Prop := e.seq ≤ s.lastEventSeq

instance (e : MessageEvent) (s : Replica) : Decidable (e.stale s) :=
  inferInstanceAs (Decidable (_ ≤ _))

/-- A stale event leaves the sequence number alone. -/
def MessageEvent.advanced (e : MessageEvent) (s : Replica) : Replica :=
  if e.stale s then s else s.advance e.seq

/-- The insert, or what is done where the row is there already. -/
def storeMessage (s : Replica) (e : MessageEvent) (c : Channel) : Option Replica :=
  match s.messages.lookup e.id with
  | some existing =>
      if existing.fingerprint = e.row.fingerprint then some (e.advanced s) else none
  | none =>
      if e.stale s ∧ e.id ≤ s.evictedThrough then
        some s
      else
        countMessage { e.advanced s with messages := s.messages.insert e.id e.row } e c

/-- `apply_guild_message_event`. -/
def applyGuildMessageEvent (s : Replica) (e : MessageEvent) : Option Replica :=
  if e.stale s ∨ e.seq = s.lastEventSeq + 1 then
    match s.channels.lookup e.channel with
    | some c =>
        if c.unavailable = false ∧ e.valid = true ∧
            (s.isMember e.author ∨ e.stale s ∨ e.crosspost ∨ e.pollResult) then
          storeMessage s e c
        else
          none
    | none => none
  else
    none

/-! ## Members -/

/-- `apply_guild_member_event`. A user of this instance who is no member needs
a join of their own; without one the event only uses up its number. -/
def applyGuildMemberEvent (domain : String) (s : Replica) (e : MemberEvent) : Option Replica :=
  if e.seq ≤ s.lastEventSeq then
    some s
  else if e.seq = s.lastEventSeq + 1 then
    match e.user.ref with
    | some u =>
        if e.valid = true ∧ e.roles.Nodup ∧ (∀ r ∈ e.roles, r ≠ s.id ∧ r ∈ s.roles) ∧
            (e.roles ≠ [] → e.temporary = false) then
          if u.domain = domain ∧ s.isMember u = false ∧ s.intents.lookup u ≠ some .joining then
            some (s.advance e.seq)
          else if e.resolves then
            some { s with
              members := if s.isMember u then s.members
                else s.members.insert u { temporary := e.temporary }
              memberRoles := s.memberRoles ++
                (e.roles.map fun r => (u, r)).filter (· ∉ s.memberRoles)
              -- `complete_remote_guild_join`
              intents := if u.domain = domain ∧ s.isMember u = false then s.intents.erase u
                else s.intents
              lastEventSeq := e.seq }
          else
            none
        else
          none
    | none => none
  else
    none

/-- `apply_guild_redaction_event`. -/
def applyGuildRedactionEvent (s : Replica) (seq : Nat) (valid : Bool) : Option Replica :=
  if seq ≤ s.lastEventSeq then some s
  else if seq = s.lastEventSeq + 1 ∧ valid = true then some (s.advance seq)
  else none

/-! ## Mutations -/

/-- The message is one of those its thread counts. -/
def countedReply (c : Channel) (id : Nat) (m : Message) : Bool :=
  c.thread && !m.deleted && c.starter ≠ some id

def deleteMessage (s : Replica) (id : Nat) (m : Message) : Replica :=
  { s with
    messages := s.messages.insert id { m with deleted := true }
    channels := s.channels.modify m.channel fun c =>
      if countedReply c id m then { c with messageCount := c.messageCount - 1 } else c }

def deleteMessages (s : Replica) (rows : List (Nat × Message)) : Replica :=
  rows.foldl (fun s row => deleteMessage s row.1 row.2) s

/-- The stored messages among `ids`. -/
def storedAmong (s : Replica) (ids : List Nat) : List (Nat × Message) :=
  ids.filterMap fun id => (s.messages.lookup id).map fun m => (id, m)

/-- The messages that a ban purges. -/
def purgedMessages (s : Replica) (author : UserRef) (createdAfter : Nat) :
    List (Nat × Message) :=
  (storedAmong s s.messages.keys).filter fun row =>
    row.2.author = author && createdAfter ≤ row.2.createdAt && !row.2.deleted &&
      row.2.safety.isNone && (s.channels.lookup row.2.channel).isSome

/-- A stored message after an update. `apply_safety_update` comes before any
other. -/
def Message.updated (m : Message) (safety : Option String) (released : Bool)
    (body : Option String) : Option Message :=
  match safety with
  | some state =>
      if m.safety = some "removed" ∧ state ≠ "removed" then
        none
      else
        some { m with
          safety := some state
          body := if m.safety = some state then m.body else body.getD m.body }
  | none =>
      if m.safety = some "pending_review" ∧ released then
        if m.deleted then none else some { m with safety := none, body := body.getD m.body }
      else if m.safety.isSome ∨ (m.deleted ∧ body.isSome) then
        none
      else
        some { m with body := body.getD m.body }

def applyMessageUpdate (s : Replica) (id : Nat) (safety : Option String) (released : Bool)
    (body : Option String) : Option Replica :=
  match s.messages.lookup id with
  | none => some s
  | some m =>
      if (s.channels.lookup m.channel).isNone then
        none
      else
        (m.updated safety released body).map fun m' =>
          { s with messages := s.messages.insert id m' }

def applyMessageDelete (s : Replica) (id : Nat) (removed : Bool) : Option Replica :=
  match s.messages.lookup id with
  | none => some s
  | some m =>
      if (s.channels.lookup m.channel).isNone then
        none
      else if removed ∨ m.safety = some "removed" then
        -- `apply_safety_delete`
        some { s with
          messages := s.messages.insert id { m with safety := some "removed", deleted := false } }
      else if m.safety.isSome then
        none
      else
        some (deleteMessage s id m)

/-- `_apply_message_bulk_delete_mutation`. -/
def applyMessageBulkDelete (s : Replica) (channel : Nat) (ids : List Nat) : Option Replica :=
  if 2 ≤ ids.length ∧ ids.length ≤ 100 ∧ ids.Nodup ∧ (s.channels.lookup channel).isSome ∧
      ∀ row ∈ storedAmong s ids, row.2.channel = channel ∧ row.2.safety = none then
    some (deleteMessages s (storedAmong s ids))
  else
    none

/-- The target of an overwrite is a role or a member of the guild. -/
def Target.known (s : Replica) : Target → Bool
  | .role id => id ∈ s.roles
  | .member u => s.isMember u

def threadMemberCount (threadMembers : Table (Nat × UserRef) ThreadMember) (thread : Nat) : Nat :=
  (threadMembers.keys.filter fun k => k.1 = thread).length

/-- The members of a thread after a change, and the count that is reported or
taken. -/
def setThreadMembers (s : Replica) (thread : Nat) (c : Channel)
    (threadMembers : Table (Nat × UserRef) ThreadMember) (memberCount : Option Nat) : Replica :=
  { s with
    threadMembers := threadMembers
    channels := s.channels.insert thread
      { c with memberCount := memberCount.getD (threadMemberCount threadMembers thread) } }

def channelUpsert (s : Replica) (create : Bool) (id : Nat) (c : Channel) (owner : UserRef) :
    Option Replica :=
  if c.thread ∧ create then
    if s.isMember owner then
      some { s with
        channels := s.channels.insert id { c with unavailable := false }
        threadMembers := if (s.threadMembers.lookup (id, owner)).isSome then s.threadMembers
          else s.threadMembers.insert (id, owner) {} }
    else
      none
  else
    some { s with channels := s.channels.insert id { c with unavailable := false } }

/-- The role assignments of a member, with the version that the event gives. -/
def setMemberRoles (s : Replica) (u : UserRef) (m : Member) (version : Nat)
    (memberRoles : List (UserRef × Nat)) : Option Replica :=
  if version < m.version then
    none
  else
    some { s with
      memberRoles := memberRoles
      members := s.members.insert u { m with version := version } }

/-- The branches of `apply_guild_mutation_event`. -/
def applyMutation (domain : String) (s : Replica) : Mutation → Option Replica
  | .guildUpdate (some u) => if s.isMember u then some { s with owner := u } else none
  | .guildUpdate none => some s
  | .channelUpsert create id c owner => channelUpsert s create id c owner
  | .channelDelete id => some (if (s.channels.lookup id).isSome then s.purgeChannel id else s)
  | .threadMemberUpsert thread u row memberCount =>
      match s.channels.lookup thread with
      | some c =>
          if c.thread ∧ s.isMember u then
            some (setThreadMembers s thread c (s.threadMembers.insert (thread, u) row) memberCount)
          else
            none
      | none => none
  | .threadMemberDelete thread u memberCount =>
      match s.channels.lookup thread with
      | some c =>
          if c.thread then
            some (setThreadMembers s thread c (s.threadMembers.erase (thread, u)) memberCount)
          else
            none
      | none => none
  | .roleUpsert id => some { s with roles := if id ∈ s.roles then s.roles else s.roles ++ [id] }
  | .roleDelete id =>
      if id ∉ s.roles then
        some s
      else if id = s.id then
        none
      else
        some { s with
          roles := s.roles.erase id
          memberRoles := s.memberRoles.filter fun r => r.2 ≠ id
          overwrites := s.overwrites.filter fun o => o.2 ≠ .role id }
  | .overwriteUpsert channel target allow deny =>
      if (s.channels.lookup channel).isSome ∧ target.known s then
        some { s with overwrites :=
          if allow = 0 ∧ deny = 0 then s.overwrites.filter (· ≠ (channel, target))
          else if (channel, target) ∈ s.overwrites then s.overwrites
          else s.overwrites ++ [(channel, target)] }
      else
        none
  | .overwriteDelete channel target =>
      if (s.channels.lookup channel).isSome ∧ target.known s then
        some { s with overwrites := s.overwrites.filter (· ≠ (channel, target)) }
      else
        none
  | .memberUpdate u row =>
      match s.members.lookup u with
      | some m =>
          if row.version < m.version then none
          else some { s with members := s.members.insert u { row with temporary := m.temporary } }
      | none => none
  | .memberRemove u =>
      if s.isMember u then
        if u = s.owner then none
        else if u.domain = domain then some ((s.removeMembers (· = u)).markDeparted u)
        else some (s.removeMembers (· = u))
      else
        some s
  | .membersOriginRemove origin =>
      if origin = s.owner.domain then none
      else if origin = domain then
        some ((s.removeMembers (·.domain = origin)).markAllDeparted (s.localMembers domain))
      else
        some (s.removeMembers (·.domain = origin))
  | .memberRoleAdd u role version =>
      match s.members.lookup u with
      | some m =>
          if role ∈ s.roles then
            setMemberRoles s u { m with temporary := false } version
              (if (u, role) ∈ s.memberRoles then s.memberRoles else s.memberRoles ++ [(u, role)])
          else
            none
      | none => none
  | .memberRoleRemove u role version =>
      match s.members.lookup u with
      | some m =>
          if role ∈ s.roles then
            setMemberRoles s u m version (s.memberRoles.filter (· ≠ (u, role)))
          else
            none
      | none => none
  | .messageUpdate id safety released body => applyMessageUpdate s id safety released body
  | .messageDelete id removed => applyMessageDelete s id removed
  | .messageBulkDelete channel ids => applyMessageBulkDelete s channel ids
  | .messagePurge author createdAfter =>
      some (deleteMessages s (purgedMessages s author createdAfter))
  | .other => some s

/-- `apply_guild_mutation_event`. -/
def applyGuildMutationEvent (domain : String) (s : Replica) (e : MutationEvent) :
    Option Replica :=
  if e.seq ≤ s.lastEventSeq then
    some s
  else if e.seq = s.lastEventSeq + 1 ∧ e.valid = true then
    (applyMutation domain s e.mutation).map fun t => t.advance e.seq
  else
    none

/-- An event, from the inbox or from a page. One that asks for a snapshot is
not applied unless it is stale. -/
def applyEvent (domain : String) (s : Replica) : Event → Option Replica
  | .message e => applyGuildMessageEvent s e
  | .member e => applyGuildMemberEvent domain s e
  | .redaction seq requiresSnapshot valid =>
      if requiresSnapshot ∧ s.lastEventSeq < seq then none
      else applyGuildRedactionEvent s seq valid
  | .mutation e =>
      if e.requiresSnapshot ∧ s.lastEventSeq < e.seq then none
      else applyGuildMutationEvent domain s e

def Event.requiresSnapshot : Event → Bool
  | .redaction _ requiresSnapshot _ => requiresSnapshot
  | .mutation e => e.requiresSnapshot
  | _ => false

/-- A page of `synchronize_guild`: one transaction, given up at an event that
asks for a snapshot. -/
def applyPage (domain : String) (s : Replica) (events : List Event) : Option Replica :=
  if events.any Event.requiresSnapshot then none else events.foldlM (applyEvent domain) s

/-! ## Snapshots -/

structure SnapshotMember where
  user : WireUser
  row : Member := {}
  /-- `resolve_delegated_profile` finds or makes the user's row. -/
  resolves : Bool := true
deriving DecidableEq, Repr

structure SnapshotThreadMember where
  thread : Nat
  user : WireUser
  row : ThreadMember := {}
deriving DecidableEq, Repr

structure Snapshot where
  snapshotSeq : Nat
  owner : UserRef
  roles : List Nat
  channels : List (Nat × Channel)
  members : List SnapshotMember
  memberRoles : List (UserRef × Nat)
  overwrites : List (Nat × Target)
  threadMembers : List SnapshotThreadMember
  valid : Bool := true
deriving DecidableEq, Repr

def maxSnapshotMembers : Nat := 100000
def maxSnapshotMemberRoles : Nat := 500000
def maxSnapshotOverwrites : Nat := 100000
def maxSnapshotThreadMembers : Nat := 100000

namespace Snapshot

/-- The parsed references of the members. -/
def memberRefs (p : Snapshot) : List (Option UserRef) := p.members.map fun m => m.user.ref

def isThread (p : Snapshot) (id : Nat) : Bool := p.channels.any fun c => c.1 = id && c.2.thread

def threadRefs (p : Snapshot) : List (Nat × Option UserRef) :=
  p.threadMembers.map fun t => (t.thread, t.user.ref)

/-- The bounds of `validate_guild_snapshot`. -/
def Bounded (p : Snapshot) : Prop :=
  p.roles.length ≤ 10000 ∧ p.channels.length ≤ 10000 ∧ p.members.length ≤ maxSnapshotMembers ∧
    p.memberRoles.length ≤ maxSnapshotMemberRoles ∧ p.overwrites.length ≤ maxSnapshotOverwrites ∧
    p.threadMembers.length ≤ maxSnapshotThreadMembers

instance (p : Snapshot) : Decidable p.Bounded := inferInstanceAs (Decidable (_ ∧ _ ∧ _ ∧ _ ∧ _ ∧ _))

/-- The target is a role or a member of the snapshot. -/
def lists (p : Snapshot) : Target → Bool
  | .role id => id ∈ p.roles
  | .member u => some u ∈ p.memberRefs

/-- The references of `validate_guild_snapshot`. -/
def Linked (p : Snapshot) (required : Option UserRef) : Prop :=
  p.roles.Nodup ∧ (p.channels.map Prod.fst).Nodup ∧
    none ∉ p.memberRefs ∧ p.memberRefs.Nodup ∧
    some p.owner ∈ p.memberRefs ∧ (∀ u ∈ required, some u ∈ p.memberRefs) ∧
    (∀ r ∈ p.memberRoles, some r.1 ∈ p.memberRefs ∧ r.2 ∈ p.roles) ∧ p.memberRoles.Nodup ∧
    (∀ o ∈ p.overwrites, o.1 ∈ p.channels.map Prod.fst ∧ p.isThread o.1 = false ∧ p.lists o.2) ∧
    p.overwrites.Nodup ∧
    (∀ t ∈ p.threadRefs, p.isThread t.1 ∧ t.2 ∈ p.memberRefs) ∧ p.threadRefs.Nodup

instance (p : Snapshot) (required : Option UserRef) : Decidable (p.Linked required) := by
  unfold Linked
  infer_instance

/-- `validate_guild_snapshot`. -/
def Valid (p : Snapshot) (required : Option UserRef) : Prop :=
  p.valid = true ∧ p.Bounded ∧ p.Linked required

instance (p : Snapshot) (required : Option UserRef) : Decidable (p.Valid required) :=
  inferInstanceAs (Decidable (_ ∧ _ ∧ _))

end Snapshot

/-- What `filter_remote_snapshot_memberships` lets through. -/
structure Admitted where
  members : List SnapshotMember
  memberRoles : List (UserRef × Nat)
  overwrites : List (Nat × Target)
deriving DecidableEq, Repr

section

variable (domain : String)

/-- A member of the snapshot who is a user of this instance, no member yet and
not joining, or any user who has departed. The strings of the snapshot are
compared. -/
def blockedRef (s : Replica) (p : Snapshot) (u : UserRef) : Prop :=
  (u ∈ p.members.map (fun m => m.user.raw) ∧ u.domain = domain ∧ u ∉ s.localMembers domain ∧
      s.intents.lookup u ≠ some .joining) ∨
    s.intents.lookup u = some .departed

instance (s : Replica) (p : Snapshot) (u : UserRef) : Decidable (blockedRef domain s p u) :=
  inferInstanceAs (Decidable (_ ∨ _))

/-- The check of the member who asked for the snapshot. -/
def requiredIntent (s : Replica) : Option UserRef → Prop
  | none => True
  | some u => u.domain = domain ∧
      (s.intents.lookup u = some .joining ∨ (s.intents.lookup u = none ∧ s.isMember u))

instance (s : Replica) (required : Option UserRef) :
    Decidable (requiredIntent domain s required) := by
  unfold requiredIntent
  cases required with
  | none => exact inferInstance
  | some u => exact inferInstance

/-- `filter_remote_snapshot_memberships`. -/
def filterRemoteSnapshotMemberships (s : Replica) (p : Snapshot) : Admitted where
  members := p.members.filter fun m => ¬ blockedRef domain s p m.user.raw
  memberRoles := p.memberRoles.filter fun r => ¬ blockedRef domain s p r.1
  overwrites := p.overwrites.filter fun o =>
    match o.2 with
    | .member u => ¬ blockedRef domain s p u
    | .role _ => true

/-- The members of the replica that the snapshot leaves out. -/
def omittedMembers (s : Replica) (a : Admitted) : List UserRef :=
  s.members.keys.filter fun u => u ∉ a.members.map fun m => m.user.raw

/-- Members that are left out go, and those of this instance have departed. -/
def dropOmitted (s : Replica) (a : Admitted) : Replica :=
  (s.removeMembers (· ∈ omittedMembers s a)).markAllDeparted
    ((omittedMembers s a).filter fun u => u.domain = domain)

/-- The channels that the snapshot leaves out are purged. -/
def purgeOmitted (s : Replica) (p : Snapshot) : Replica :=
  (s.channels.keys.filter (· ∉ p.channels.map Prod.fst)).foldl Replica.purgeChannel s

def installChannels (channels : Table Nat Channel) (p : Snapshot) : Table Nat Channel :=
  p.channels.foldl (fun t c => t.insert c.1 { c.2 with unavailable := false }) channels

def installMember (memberRoles : List (UserRef × Nat)) (members : Table UserRef Member)
    (m : SnapshotMember) : Table UserRef Member :=
  match m.user.ref with
  | some u => members.insert u
      { m.row with temporary := m.row.temporary && u ∉ memberRoles.map Prod.fst }
  | none => members

def installMembers (members : Table UserRef Member) (a : Admitted) : Table UserRef Member :=
  a.members.foldl (installMember a.memberRoles) members

/-- The thread memberships of the members that were let in. -/
def admittedThreadMembers (p : Snapshot) (a : Admitted) : List SnapshotThreadMember :=
  p.threadMembers.filter fun t => t.user.raw ∈ a.members.map fun m => m.user.raw

def SnapshotThreadMember.key (t : SnapshotThreadMember) : Nat × UserRef := (t.thread, t.user.raw)

/-- The rows that are not listed go, the listed ones are written. -/
def installThreadMembers (threadMembers : Table (Nat × UserRef) ThreadMember)
    (incoming : List SnapshotThreadMember) (a : Admitted) :
    Table (Nat × UserRef) ThreadMember :=
  incoming.foldl (fun t row => t.insert row.key row.row)
    (threadMembers.keep fun k =>
      k.2 ∉ a.members.map (fun m => m.user.raw) || k ∈ incoming.map SnapshotThreadMember.key)

/-- `complete_remote_guild_join`, for the intent that was found. -/
def completeRequired (found intents : Table UserRef Intent) (required : Option UserRef) :
    Table UserRef Intent :=
  match required with
  | some u => if (found.lookup u).isSome then intents.erase u else intents
  | none => intents

/-- The rows that an admitted snapshot writes over what is left of the old
ones. -/
def installRows (kept : Replica) (p : Snapshot) (a : Admitted) : Replica :=
  { kept with
    owner := p.owner
    lastEventSeq := p.snapshotSeq
    roles := p.roles
    channels := installChannels kept.channels p
    members := installMembers kept.members a
    memberRoles := a.memberRoles
    overwrites := a.overwrites
    threadMembers := installThreadMembers kept.threadMembers (admittedThreadMembers p a) a }

def installSnapshot (s : Replica) (p : Snapshot) (a : Admitted) (required : Option UserRef) :
    Replica :=
  { installRows (purgeOmitted (dropOmitted domain s a) p) p a with
    intents := completeRequired s.intents (dropOmitted domain s a).intents required }

def Target.knownIn (refs : List (Option UserRef)) : Target → Bool
  | .member u => some u ∈ refs
  | .role _ => true

/-- The foreign keys of the rows that a snapshot adds. Thread memberships are
written under the strings of the snapshot. -/
def keysKnown (p : Snapshot) (a : Admitted) : Prop :=
  (∀ r ∈ a.memberRoles, some r.1 ∈ a.members.map fun m => m.user.ref) ∧
    (∀ o ∈ a.overwrites, o.2.knownIn (a.members.map fun m => m.user.ref)) ∧
    ∀ t ∈ admittedThreadMembers p a, some t.user.raw ∈ a.members.map fun m => m.user.ref

instance (p : Snapshot) (a : Admitted) : Decidable (keysKnown p a) :=
  inferInstanceAs (Decidable (_ ∧ _ ∧ _))

/-- `apply_guild_snapshot`. -/
def applyGuildSnapshot (s : Replica) (p : Snapshot) (required : Option UserRef) :
    Option Replica :=
  if p.Valid required ∧ requiredIntent domain s required ∧
      (∀ m ∈ (filterRemoteSnapshotMemberships domain s p).members, m.resolves = true) ∧
      keysKnown p (filterRemoteSnapshotMemberships domain s p) then
    some (installSnapshot domain s p (filterRemoteSnapshotMemberships domain s p) required)
  else
    none

/-! What a snapshot leaves of the members -/

theorem foldl_frame {β γ : Type*} (f : Replica → β → Replica) (g : Replica → γ)
    (hf : ∀ s b, g (f s b) = g s) (l : List β) (s : Replica) : g (l.foldl f s) = g s := by
  induction l generalizing s with
  | nil => rfl
  | cons b l ih => rw [List.foldl_cons, ih, hf]

variable {domain} {s : Replica} {p : Snapshot} {a : Admitted}

theorem members_dropOmitted :
    (dropOmitted domain s a).members = s.members.keep fun u => u ∉ omittedMembers s a := by
  rw [dropOmitted, Replica.markAllDeparted,
    foldl_frame Replica.markDeparted Replica.members fun _ _ => rfl]
  simp only [Replica.removeMembers, decide_not]

theorem threadMembers_dropOmitted :
    (dropOmitted domain s a).threadMembers =
      s.threadMembers.keep fun k => k.2 ∉ omittedMembers s a := by
  rw [dropOmitted, Replica.markAllDeparted,
    foldl_frame Replica.markDeparted Replica.threadMembers fun _ _ => rfl]
  simp only [Replica.removeMembers, decide_not]

theorem members_purgeOmitted : (purgeOmitted s p).members = s.members :=
  foldl_frame Replica.purgeChannel Replica.members (fun _ _ => rfl) _ _

theorem threadMembers_purgeOmitted : (purgeOmitted s p).threadMembers = s.threadMembers :=
  foldl_frame Replica.purgeChannel Replica.threadMembers (fun _ _ => rfl) _ _

theorem isMember_installMembers {rows : List SnapshotMember} {roles : List (UserRef × Nat)}
    {members : Table UserRef Member} {u : UserRef} :
    ((rows.foldl (installMember roles) members).lookup u).isSome ↔
      (members.lookup u).isSome ∨ some u ∈ rows.map fun m => m.user.ref := by
  induction rows generalizing members with
  | nil => simp
  | cons m rows ih =>
      rw [List.foldl_cons, ih, List.map_cons, List.mem_cons, ← or_assoc]
      refine or_congr_left ?_
      unfold installMember
      cases m.user.ref with
      | none => simp
      | some v =>
          rw [Table.lookup_insert_ite]
          by_cases hv : u = v
          · simp [hv]
          · simp [hv]

/-- A member who stays is listed. -/
theorem mem_raw_of_kept {u : UserRef}
    (h : ((purgeOmitted (dropOmitted domain s a) p).members.lookup u).isSome) :
    u ∈ a.members.map fun m => m.user.raw := by
  rw [members_purgeOmitted, members_dropOmitted, Table.lookup_keep] at h
  split at h
  · rename_i hkept
    by_contra hraw
    refine of_decide_eq_true hkept (List.mem_filter.mpr ⟨AList.lookup_isSome.mp h, ?_⟩)
    exact decide_eq_true hraw
  · exact absurd h (by simp)

end

/-! ## Operations of this instance -/

/-- Every channel is purged and the overwrites go. -/
def Replica.purgeAll (s : Replica) : Replica :=
  { s.channels.keys.foldl Replica.purgeChannel s with overwrites := [] }

section

variable (domain : String)

/-- `begin_remote_guild_join`. The limit counts the user's joins of all
guilds. -/
def beginRemoteGuildJoin (s : Replica) (u : UserRef) (atLimit : Bool) : Option Replica :=
  if u.domain ≠ domain then none
  else if s.isMember u ∧ s.intents.lookup u = none then some s
  else if s.intents.lookup u ≠ some .joining ∧ atLimit then none
  else some { s with intents := s.intents.insert u .joining }

/-- `apply_guild_access_revocation`. -/
def applyGuildAccessRevocation (s : Replica) (u : UserRef) : Option Replica :=
  if u.domain = domain then
    some (if (s.removeMembers (· = u)).localMembers domain = [] then
      (s.removeMembers (· = u)).purgeAll else s.removeMembers (· = u))
  else
    none

/-- `_remove_guild_membership`, of a guild of another instance. -/
def leaveGuild (s : Replica) (u : UserRef) : Option Replica :=
  if u.domain = domain ∧ s.isMember u ∧ u ≠ s.owner then
    applyGuildAccessRevocation domain (s.markDeparted u) u
  else
    none

/-- `apply_guild_instance_access_revocation`. -/
def applyGuildInstanceAccessRevocation (s : Replica) : Replica :=
  (s.removeMembers (·.domain = domain)).purgeAll

/-- `purge_stale_remote_guild_membership_intents`: the rows that are old enough
are an input. -/
def purgeIntents (s : Replica) (stale : List UserRef) : Replica :=
  { s with intents := s.intents.eraseAll stale }

/-- Messages make room for others. -/
def evictMessages (s : Replica) (ids : List Nat) : Replica :=
  { s with
    messages := s.messages.eraseAll ids
    evictedThrough := ids.foldl max s.evictedThrough }

inductive Input where
  | event (e : Event)
  | snapshot (p : Snapshot) (required : Option UserRef)
  | beginJoin (u : UserRef) (atLimit : Bool)
  | leave (u : UserRef)
  | revokeAccess (u : UserRef)
  | revokeInstance
  | purgeIntents (stale : List UserRef)
  | evict (ids : List Nat)

def apply (s : Replica) : Input → Option Replica
  | .event e => applyEvent domain s e
  | .snapshot p required => applyGuildSnapshot domain s p required
  | .beginJoin u atLimit => beginRemoteGuildJoin domain s u atLimit
  | .leave u => leaveGuild domain s u
  | .revokeAccess u => applyGuildAccessRevocation domain s u
  | .revokeInstance => some (applyGuildInstanceAccessRevocation domain s)
  | .purgeIntents stale => some (purgeIntents s stale)
  | .evict ids => some (evictMessages s ids)

/-- A page that is applied is a run of its events; one that is not leaves no
trace. -/
theorem exec_of_applyPage {s t : Replica} {events : List Event}
    (h : applyPage domain s events = some t) :
    Exec (apply domain) Always s (events.map .event) t := by
  unfold applyPage at h
  split at h
  · exact absurd h (by simp)
  clear * - h
  induction events generalizing s with
  | nil =>
      obtain rfl : s = t := Option.some.inj h
      exact .nil s
  | cons e es ih =>
      obtain ⟨s₁, h₁, h₂⟩ := Option.bind_eq_some_iff.mp h
      exact .cons trivial h₁ (ih h₂)

end

end GuildMirror

end Kaede
