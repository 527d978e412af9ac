import Mathlib.Data.Finset.Basic
import Mathlib.Logic.Function.Basic
import Kaede.Runs

/-!
# Voice connections of one identity

The Redis keys that fence a voice participant at one authority, and the
Lua scripts of `backend/app/voice/state.py` that write them: claim,
rotate, bump, release, refresh and migrate. A connection record lives
under the identity's key, or for a bot in a guild room under the key of
that guild (`voice_connection_key`). The generation counter belongs to
the room.

Each script is one atomic step. A record's time to live may run out at
any moment; the generation counters do not expire. Identities are fixed,
so a key is named by what is left of it.
-/

namespace Kaede

/-- `parse_room_name`: a guild's voice channel or a direct call. -/
inductive VoiceRoom where
  | guild (guildId channelId : Nat)
  | dm (channelId callId : Nat)
deriving DecidableEq, Repr

inductive ClientKind where
  | web
  | desktop
  | mobile
  | bot
deriving DecidableEq, Repr

/-- The connection keys of one identity. -/
inductive ConnectionKey where
  | identity
  | guild (guildId : Nat)
deriving DecidableEq, Repr

structure VoiceConnection where
  connectionId : String
  room : VoiceRoom
  generation : Nat
  clientKind : ClientKind
  claimedAt : Int
  botLineage : Option String
deriving DecidableEq, Repr

/-- The identity's entry in a room's occupancy hash. -/
structure VoiceOccupant where
  connectionId : String
  room : VoiceRoom
  clientKind : ClientKind
  generation : Nat
deriving DecidableEq, Repr

structure VoiceKeys where
  connection : ConnectionKey → Option VoiceConnection
  generation : VoiceRoom → Nat
  occupant : VoiceRoom → Option VoiceOccupant
  index : Finset ConnectionKey

/-- `_bot_guild_id`. -/
def botGuildId (room : Option VoiceRoom) (kind : Option ClientKind) : Option Nat :=
  match room, kind with
  | some (.guild guildId _), some .bot => some guildId
  | _, _ => none

/-- `voice_connection_key`. -/
def voiceConnectionKey (room : Option VoiceRoom) (kind : Option ClientKind) : ConnectionKey :=
  match botGuildId room kind with
  | none => .identity
  | some guildId => .guild guildId

namespace VoiceKeys

/-- `INCR` of a room's generation, and `BUMP_GENERATION_LUA`. -/
def bumpGeneration (s : VoiceKeys) (room : VoiceRoom) : VoiceKeys :=
  { s with generation := Function.update s.generation room (s.generation room + 1) }

def setConnection (s : VoiceKeys) (key : ConnectionKey) (c : Option VoiceConnection) : VoiceKeys :=
  { s with connection := Function.update s.connection key c }

/-- `SADD` of a bot-guild key to the identity's index. -/
def retainIndex (s : VoiceKeys) (room : VoiceRoom) (kind : ClientKind) : VoiceKeys :=
  match botGuildId (some room) (some kind) with
  | none => s
  | some guildId => { s with index := insert (.guild guildId) s.index }

end VoiceKeys

/-! ## The scripts -/

structure VoiceClaim where
  connectionId : String
  room : VoiceRoom
  clientKind : ClientKind
  now : Int
  takeover : Bool
  botLineage : Option String
deriving DecidableEq, Repr

/-- The four values a claim returns. -/
structure ClaimReply where
  granted : Bool
  generation : Nat
  previousRoom : Option VoiceRoom
  previousKind : String
deriving DecidableEq, Repr

def ClientKind.name : ClientKind → String
  | .web => "web"
  | .desktop => "desktop"
  | .mobile => "mobile"
  | .bot => "bot"

/-- The record a claim writes, with the generation it just drew. -/
def VoiceClaim.record (a : VoiceClaim) (generation : Nat) : VoiceConnection where
  connectionId := a.connectionId
  room := a.room
  generation := generation
  clientKind := a.clientKind
  claimedAt := a.now
  botLineage := a.botLineage

/-- The part of a claim that draws a generation and writes the record. -/
def grantConnection (s : VoiceKeys) (a : VoiceClaim) (previous : Option VoiceConnection) :
    ClaimReply × VoiceKeys :=
  let s := s.bumpGeneration a.room
  let generation := s.generation a.room
  let s := s.setConnection (voiceConnectionKey (some a.room) (some a.clientKind))
    (some (a.record generation))
  let s := s.retainIndex a.room a.clientKind
  ({ granted := true
     generation := generation
     previousRoom := previous.map VoiceConnection.room
     previousKind := (previous.map fun c => c.clientKind.name).getD "" }, s)

/-- `CLAIM_CONNECTION_LUA`. -/
def claimConnection (s : VoiceKeys) (a : VoiceClaim) : ClaimReply × VoiceKeys :=
  match s.connection (voiceConnectionKey (some a.room) (some a.clientKind)) with
  | none => grantConnection s a none
  | some current =>
    let s := s.retainIndex a.room a.clientKind
    if current.connectionId = a.connectionId ∧ current.room = a.room then
      if current.botLineage ≠ a.botLineage then
        (⟨false, current.generation, some current.room, "another worker"⟩, s)
      else (⟨true, current.generation, none, ""⟩, s)
    else if ¬ a.takeover then
      (⟨false, current.generation, some current.room, current.clientKind.name⟩, s)
    else
      let s := if current.room ≠ a.room then s.bumpGeneration current.room else s
      grantConnection s a (some current)

/-- `ROTATE_OCCUPANT_GRANT_LUA` for the occupant its caller passes: the new
generation, or nothing. -/
def rotateOccupantGrant (s : VoiceKeys) (expected : Nat) (o : VoiceOccupant) :
    Option Nat × VoiceKeys :=
  let key := voiceConnectionKey (some o.room) (some o.clientKind)
  if s.generation o.room ≠ expected then (none, s)
  else
    match s.connection key, s.occupant o.room with
    | some connection, some occupant =>
      if connection.connectionId ≠ o.connectionId ∨ connection.room ≠ o.room ∨
          connection.generation ≠ expected ∨ occupant.connectionId ≠ o.connectionId ∨
          occupant.room ≠ o.room then (none, s)
      else
        let generation := expected + 1
        (some generation, {
          connection := Function.update s.connection key
            (some { connection with generation := generation })
          generation := Function.update s.generation o.room generation
          occupant := Function.update s.occupant o.room
            (some { o with generation := generation })
          index := s.index })
    | _, _ => (none, s)

/-- `RELEASE_CONNECTION_LUA`. -/
def releaseConnection (s : VoiceKeys) (connectionId : String) (room : Option VoiceRoom)
    (generation : Option Nat) (kind : Option ClientKind) : Bool × VoiceKeys :=
  let key := voiceConnectionKey room kind
  match s.connection key with
  | none => (false, s)
  | some current =>
    if current.connectionId ≠ connectionId then (false, s)
    else if ∃ r ∈ room, current.room ≠ r then (false, s)
    else if ∃ g ∈ generation, current.generation ≠ g then (false, s)
    else
      let s := s.setConnection key none
      (true, { s with index :=
        if key = .identity then s.index else s.index.erase key })

/-- `REFRESH_CONNECTION_LUA`; the record only gets a longer time to live. -/
def refreshConnection (s : VoiceKeys) (connectionId : String) (room : VoiceRoom)
    (kind : ClientKind) : Bool × VoiceKeys :=
  match s.connection (voiceConnectionKey (some room) (some kind)) with
  | none => (false, s)
  | some current =>
    if current.connectionId ≠ connectionId then (false, s)
    else (true, s.retainIndex room kind)

/-- `MIGRATE_BOT_GUILD_CONNECTION_LUA`: move a bot's claim in this guild from
the identity's key to the guild's. -/
def migrateBotGuildConnection (s : VoiceKeys) (guildId : Nat) : Bool × VoiceKeys :=
  let indexed := { s with index := insert (.guild guildId) s.index }
  match s.connection (.guild guildId), s.connection .identity with
  | some _, _ => (true, indexed)
  | none, none => (false, s)
  | none, some current =>
    if current.clientKind ≠ .bot then (false, s)
    else
      match current.room with
      | .dm _ _ => (false, s)
      | .guild g _ =>
        if g ≠ guildId then (false, s)
        else (true,
          (indexed.setConnection (.guild guildId) (some current)).setConnection .identity none)

/-- What a token carries to be matched. -/
structure VoiceGrant where
  connectionId : String
  room : VoiceRoom
  generation : Nat
deriving DecidableEq, Repr

def VoiceConnection.grant (c : VoiceConnection) : VoiceGrant :=
  ⟨c.connectionId, c.room, c.generation⟩

/-- `_migrate_bot_guild_connection`: the migration runs for a bot in a guild
room only. -/
def VoiceKeys.migratedFor (s : VoiceKeys) (room : VoiceRoom) (kind : Option ClientKind) :
    VoiceKeys :=
  match botGuildId (some room) kind with
  | none => s
  | some guildId => (migrateBotGuildConnection s guildId).2

/-- `voice_connection_matches`. -/
def voiceConnectionMatches (s : VoiceKeys) (g : VoiceGrant) (kind : Option ClientKind) : Bool :=
  match (s.migratedFor g.room kind).connection (voiceConnectionKey (some g.room) kind) with
  | none => false
  | some current => current.grant = g

/-! ## Steps -/

/-- A script call, or something outside the scripts: a record's time to
live runs out, or the identity's occupancy of a room is written. -/
inductive VoiceScript where
  | claim (a : VoiceClaim)
  | rotate (expected : Nat) (o : VoiceOccupant)
  | bump (room : VoiceRoom)
  | release (connectionId : String) (room : Option VoiceRoom) (generation : Option Nat)
      (kind : Option ClientKind)
  | refresh (connectionId : String) (room : VoiceRoom) (kind : ClientKind)
  | migrate (guildId : Nat)
  | expire (key : ConnectionKey)
  | occupy (room : VoiceRoom) (o : Option VoiceOccupant)

def VoiceKeys.step (s : VoiceKeys) : VoiceScript → Option VoiceKeys
  | .claim a => some (claimConnection s a).2
  | .rotate expected o => some (rotateOccupantGrant s expected o).2
  | .bump room => some (s.bumpGeneration room)
  | .release connectionId room generation kind =>
      some (releaseConnection s connectionId room generation kind).2
  | .refresh connectionId room kind => some (refreshConnection s connectionId room kind).2
  | .migrate guildId => some (migrateBotGuildConnection s guildId).2
  | .expire key => some (s.setConnection key none)
  | .occupy room o => some { s with occupant := Function.update s.occupant room o }

/-- Where an identity's history starts: at most a claim under the
identity's own key, whose generation the room's counter has reached. -/
def VoiceKeys.Start (s : VoiceKeys) : Prop :=
  (∀ guildId, s.connection (.guild guildId) = none) ∧
    ∀ c ∈ s.connection .identity, c.generation ≤ s.generation c.room

end Kaede
