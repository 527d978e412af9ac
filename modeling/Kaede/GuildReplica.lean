import Kaede.EncryptionPolicy
import Kaede.Guild
import Kaede.Runs
import Kaede.Tables

/-!
# A guild's channels at its home and on a replica

The encryption policies of a guild's channels on two servers. The home
changes them (a commit of an MLS operation in `backend/app/api/e2ee.py`, a
pause) and issues events through `queue_guild_mutation`
(`backend/app/chat/guild_revision.py`); the replica applies the events, or a
snapshot of the home (`backend/app/federation/guilds.py`).

A mutation that changes access pauses the encrypted channels on both sides.
The home decides this from the caller's `pause_e2ee`, the replica from the
event: it excepts three event types if it knows the user as a bot. A
mutation may ask for a snapshot, and then the replica does not apply it.

A replica applies events in sequence, so what it is after an event does not
depend on when that happens: here an event is applied when it is issued, or
not at all, and then only a snapshot closes the gap.
-/

namespace Kaede

namespace GuildSync

/-- The channels of a guild on one server: their policies by id, and the
sequence number of the last event. -/
structure Side where
  channels : Table Nat ChannelPolicy := ∅
  seq : Nat := 0

structure State where
  home : Side
  replica : Side

inductive MutationType where
  | channelCreate
  | known (event : GuildEvent)
  | other (type : String)
deriving DecidableEq, Repr

/-- The type is in `GUILD_E2EE_ACCESS_MUTATION_EVENTS`. -/
def MutationType.changesAccess : MutationType → Bool
  | .known event => event ∈ guildE2eeAccessMutationEvents
  | _ => false

/-- The type is about a channel whose state the event carries. -/
def MutationType.carriesChannel : MutationType → Bool
  | .channelCreate => true
  | .known event => event = .channelUpdate
  | .other _ => false

/-- A call of `queue_guild_mutation`; `user` is the one its content names. -/
structure Mutation where
  type : MutationType
  user : Option UserRef := none
  channel : Option Nat := none
  snapshotRequired : Bool := false
  pauseE2ee : Bool := true
deriving DecidableEq, Repr

/-- The event that a destination gets. Without a mutation it is a redaction,
which says no more than its context does. -/
structure Event where
  seq : Nat
  snapshotRequired : Bool
  mutation : Option Mutation
  policy : Option (Nat × PolicyPayload)
deriving DecidableEq, Repr

/-- How an event reaches the replica, and what the replica's rows say once
it has been applied: who is a bot there, and whether a join made a member. -/
structure Delivery where
  inbox : Bool
  knownBot : UserRef → Bool
  newMember : Bool

/-! ## At the home -/

/-- `encryption_state = 'rekeying'` where the keys are in use. -/
def pausePolicy (p : ChannelPolicy) : ChannelPolicy :=
  if p.mode = .e2ee ∧ p.state = .active then { p with state := .rekeying } else p

/-- `pause_guild_e2ee_for_membership_change`. -/
def pauseChannels (channels : Table Nat ChannelPolicy) : Table Nat ChannelPolicy :=
  channels.mapValues pausePolicy

/-- The channel state in the content, which must be that of a row. -/
def carriedPolicy (s : Side) (m : Mutation) : Option (Nat × PolicyPayload) :=
  if m.type.carriesChannel then
    m.channel.bind fun id => (s.channels.lookup id).map fun p =>
      (id, channelEncryptionPolicyPayload p)
  else none

/-- The destination may not inspect the channel and gets a redaction. -/
def Mutation.redacted (m : Mutation) (visible : Bool) : Bool := m.channel.isSome && !visible

/-- `queue_guild_mutation`; `visible` tells whether the destination may
inspect the channel. -/
def queueGuildMutation (s : Side) (m : Mutation) (visible : Bool) : Option (Side × Event) :=
  if m.type.carriesChannel ∧ carriedPolicy s m = none then none
  else some
    ({ channels := if m.pauseE2ee && m.type.changesAccess then pauseChannels s.channels
        else s.channels
       seq := s.seq + 1 },
     { seq := s.seq + 1
       snapshotRequired := m.snapshotRequired
       mutation := if m.redacted visible then none else some m
       policy := if m.redacted visible then none else carriedPolicy s m })

/-- The policy that a commit leaves: it opens the next generation. -/
def committedPolicy (p : ChannelPolicy) (groupId : String) : ChannelPolicy where
  mode := .e2ee
  state := .active
  generation := p.generation + 1
  protocol := some e2eeProtocolMls10
  suite := some e2eeSuiteMls128
  groupId := some groupId
  epoch := some (if p.mode = .plaintext then 1 else max 1 (p.epoch.getD 0 + 1))

/-- A commit needs a channel that is not encrypted, or one that is active or
being rekeyed, and columns that take the new values. -/
def Commits (p : ChannelPolicy) (groupId : String) : Prop :=
  ((p.mode = .plaintext ∧ (p.state = .plaintext ∨ p.state = .failed)) ∨
    (p.mode = .e2ee ∧ (p.state = .active ∨ p.state = .rekeying))) ∧
  p.generation < 9223372036854775807 ∧ (∀ n ∈ p.epoch, n < 9223372036854775807) ∧
  1 ≤ groupId.length ∧ groupId.length ≤ 128

instance (p : ChannelPolicy) (groupId : String) : Decidable (Commits p groupId) :=
  inferInstanceAs (Decidable (_ ∧ _))

/-! ## On the replica -/

/-- Whether `apply_guild_mutation_event` pauses for an event. -/
def replicaPauses (m : Mutation) (knownBot : UserRef → Bool) : Bool :=
  m.type.changesAccess &&
    !(m.type ∈ [.known .memberRemove, .known .memberRoleAdd, .known .memberRoleRemove] &&
      m.user.any knownBot)

/-- The channel's part of `apply_guild_mutation_event`. -/
def applyChannel (channels : Table Nat ChannelPolicy) (id : Nat) (payload : PolicyPayload) :
    Except String (Table Nat ChannelPolicy) := do
  let policy ← validateChannelEncryptionPolicy (some payload)
  match channels.lookup id with
  | none => .ok (channels.insert id policy)
  | some stored => do
      validateChannelEncryptionPolicyTransition stored policy "channel"
      .ok (channels.insert id policy)

def applyPolicy (channels : Table Nat ChannelPolicy) :
    Option (Nat × PolicyPayload) → Except String (Table Nat ChannelPolicy)
  | none => .ok channels
  | some (id, payload) => applyChannel channels id payload

/-- `apply_guild_mutation_event`, and its sibling for redactions, which only
advances the sequence. -/
def applyGuildMutationEvent (s : Side) (e : Event) (knownBot : UserRef → Bool) :
    Except String Side :=
  if e.seq ≤ s.seq then .ok s
  else if e.seq ≠ s.seq + 1 then .error "guild sequence gap"
  else
    match e.mutation with
    | none => .ok { s with seq := e.seq }
    | some m => do
        let channels ← applyPolicy s.channels e.policy
        .ok { channels := if replicaPauses m knownBot then pauseChannels channels else channels
              seq := e.seq }

/-- `apply_guild_member_event`; the flag tells that the join made a member. -/
def applyGuildMemberEvent (s : Side) (e : Event) (newMember : Bool) : Except String (Side × Bool) :=
  if e.seq ≤ s.seq then .ok (s, false)
  else if e.seq ≠ s.seq + 1 then .error "guild sequence gap"
  else .ok ({ s with seq := e.seq }, newMember)

/-- The inbox pauses for a join that made a member, unless it is a bot. -/
def joinPauses (m : Mutation) (d : Delivery) (created : Bool) : Bool :=
  d.inbox && created && !m.user.any d.knownBot

def receiveJoin (s : Side) (e : Event) (m : Mutation) (d : Delivery) : Except String Side := do
  let (side, created) ← applyGuildMemberEvent s e d.newMember
  .ok (if joinPauses m d created then { side with channels := pauseChannels side.channels }
    else side)

/-- An event in the inbox (`process_event`) or in a page of a gap fill
(`synchronize_guild`). Where `guild_event_requires_snapshot` says so, both
leave it for a snapshot; neither asks this of a join. -/
def receiveEvent (s : Side) (e : Event) (d : Delivery) : Except String Side :=
  match e.mutation.filter fun m => m.type = .known .memberAdd with
  | some m => receiveJoin s e m d
  | none =>
      if e.snapshotRequired ∧ s.seq < e.seq then .error "federation resync retry"
      else applyGuildMutationEvent s e d.knownBot

/-- A channel of a snapshot. A row that is new starts with the columns'
defaults. -/
def importChannel (channels : Table Nat ChannelPolicy) (id : Nat) (payload : PolicyPayload) :
    Except String (Table Nat ChannelPolicy) := do
  let policy ← validateChannelEncryptionPolicy (some payload)
  validateChannelEncryptionPolicyTransition ((channels.lookup id).getD plaintextPolicy) policy
    "snapshot channel"
  .ok (channels.insert id policy)

def importChannels (channels : Table Nat ChannelPolicy) :
    List (Nat × PolicyPayload) → Except String (Table Nat ChannelPolicy)
  | [] => .ok channels
  | (id, payload) :: rest => do
      let channels ← importChannel channels id payload
      importChannels channels rest

/-- The channels of a snapshot that the replica may see. -/
def snapshotChannels (s : Side) (visible : Nat → Bool) : List (Nat × PolicyPayload) :=
  (s.channels.entries.filter fun e => visible e.1).map fun e =>
    (e.1, channelEncryptionPolicyPayload e.2)

/-! ## Steps -/

inductive Input where
  /-- A mutation is issued, and the event handed to the replica or not. -/
  | mutate (m : Mutation) (visible : Bool) (handed : Option Delivery)
  /-- A bot is installed, and each of the three events handed over or not. -/
  | install (bot : UserRef) (role join grant : Option Delivery)
  /-- A channel is created. -/
  | create (id : Nat) (visible : Bool) (handed : Option Delivery)
  | commit (id : Nat) (groupId : String)
  /-- The home pauses one channel, without an event of its own. -/
  | pause (id : Nat)
  | snapshot (visible : Nat → Bool)

/-- An event that the replica refuses, for whatever reason, is as one that
it does not get. -/
def State.mutate (s : State) (m : Mutation) (visible : Bool) (handed : Option Delivery) :
    Option State :=
  (queueGuildMutation s.home m visible).map fun (home, e) =>
    { home
      replica := match handed with
        | some d => (receiveEvent s.replica e d).toOption.getD s.replica
        | none => s.replica }

/-- `install_bot` issues three mutations in one transaction: the bot's role,
its join, and the grant of the role. -/
def installRole : Mutation := { type := .known .roleCreate, snapshotRequired := true }

def installJoin (bot : UserRef) : Mutation :=
  { type := .known .memberAdd, user := some bot, pauseE2ee := false }

def installGrant (bot : UserRef) : Mutation :=
  { type := .known .memberRoleAdd, user := some bot, snapshotRequired := true, pauseE2ee := false }

def State.install (s : State) (bot : UserRef) (role join grant : Option Delivery) :
    Option State :=
  (s.mutate installRole true role).bind fun s =>
    (s.mutate (installJoin bot) true join).bind fun s => s.mutate (installGrant bot) true grant

def step (s : State) : Input → Option State
  | .mutate m visible handed =>
      if m.type = .channelCreate then none else s.mutate m visible handed
  | .install bot role join grant => s.install bot role join grant
  | .create id visible handed =>
      if (s.home.channels.lookup id).isSome ∨ (s.replica.channels.lookup id).isSome then none
      else
        { s with home.channels := s.home.channels.insert id plaintextPolicy }.mutate
          { type := .channelCreate, channel := some id } visible handed
  | .commit id groupId =>
      (s.home.channels.lookup id).bind fun p =>
        if Commits p groupId then
          some { s with home.channels := s.home.channels.insert id (committedPolicy p groupId) }
        else none
  | .pause id => some { s with home.channels := s.home.channels.modify id pausePolicy }
  | .snapshot visible =>
      let imported := importChannels s.replica.channels (snapshotChannels s.home visible)
      some { s with
        replica := match imported with
          | .ok channels => { channels, seq := s.home.seq }
          | .error _ => s.replica }

/-- A caller that does not pause for a change of access asks for a snapshot;
`install_bot` alone issues a join without a pause. -/
def AsIssued (_ : State) : Input → Prop
  | .mutate m _ _ => m.type.changesAccess = true → m.pauseE2ee = false →
      m.snapshotRequired = true ∧ m.type ≠ .known .memberAdd
  | _ => True

end GuildSync

end Kaede
