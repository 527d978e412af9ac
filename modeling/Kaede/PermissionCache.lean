import Kaede.Expiring
import Kaede.PermissionKeys
import Kaede.Shared

/-!
# The permission cache

`get_permissions` of `backend/app/chat/permissions.py`, with the loads its
callers make first: `load_channel_access` reads the channel row and then the
guild row, endpoints that lock the guild read the channel after it. Each
step of a request is one database or Redis command, and transactions commit
between any two of them: sessions read at the default isolation level, so
every statement sees what is committed by then.

A session keeps the rows it has loaded. The second select of the member row
in `calculate_permissions` therefore yields the row of the first one, and
the channel and guild rows stay as they were loaded.

`CacheSystem.past` holds the guild's earlier committed states, oldest first.
A request remembers where in the history its first read, its read of the
guild row, and its last read so far were made; no step depends on it.
-/

namespace Kaede

open Permission

/-- `permission_cache_ttl`, in seconds. -/
def permissionCacheTtl (member : GuildMember) (evaluatedAt : Nat) : Nat :=
  if member.timeoutIndefinite then 300
  else
    match member.timeoutUntil with
    | none => 300
    | some deadline =>
        if deadline ≤ evaluatedAt then 300
        else max 1 (min 300 ((deadline - evaluatedAt + (second - 1)) / second))

/-! ## One calculation -/

/-- The rows a request has when it comes to the cache. -/
structure Loaded where
  channel : Option Channel
  guild : GuildRow
  member : GuildMember
deriving DecidableEq, Repr

/-- The parts of the cache key that differ within a guild. -/
structure PermissionKey where
  generation : Nat
  actor : UserRef
  version : Nat
  scope : Option Nat
deriving DecidableEq, Repr

namespace Loaded

def key (rows : Loaded) (actor : UserRef) : PermissionKey :=
  { generation := rows.guild.permissionGeneration, actor := actor
    version := rows.member.memberVersion, scope := rows.channel.map Channel.id }

def permissionRows (rows : Loaded) (roles : List Role) (overwrites : List PermissionOverwrite)
    (threadMember : Bool) : PermissionRows :=
  { guild := rows.guild, member := rows.member, roles := roles, channel := rows.channel
    overwrites := overwrites, threadMember := threadMember }

end Loaded

/-- The next read of `calculate_permissions`, with what it has read so
far. -/
inductive PermissionReading where
  | roles
  | threadParent (roles : List Role) (thread : Channel)
  | category (roles : List Role) (channel : Channel)
  | overwrites (roles : List Role) (channel : Channel)
  | threadMember (roles : List Role) (overwrites : List PermissionOverwrite) (thread : Channel)
      (current : Nat)
deriving DecidableEq, Repr

namespace PermissionReading

/-- `overwrite_channel` is known, unless a category stands for it. -/
def ofOverwriteChannel (roles : List Role) (channel : Channel) : PermissionReading :=
  if channel.parentId ≠ none ∧ channel.permissionsSynced then .category roles channel
  else .overwrites roles channel

/-- What follows the overwrites: members of a private thread are looked up
for those who cannot manage threads. -/
def conclude (rows : Loaded) (actor : User) (roles : List Role)
    (overwrites : List PermissionOverwrite) (current : Nat) : PermissionReading ⊕ Nat :=
  let read := rows.permissionRows roles overwrites true
  let permissions := read.resolve actor current
  match rows.channel with
  | none => .inr (read.restrict actor permissions)
  | some c =>
      if c.type = .privateThread ∧ permissions &&& manageThreads = 0 then
        .inl (.threadMember roles overwrites c current)
      else .inr (read.restrict actor permissions)

/-- One read, of the state `g`; a mask when it was the last. -/
def step (g : Guild) (actor : User) (rows : Loaded) (evaluatedAt : Option Nat) (now : Nat) :
    PermissionReading → Except GuildError (PermissionReading ⊕ Nat)
  | .roles =>
      match rows.channel with
      | none => .ok (conclude rows actor (g.rolesOf actor.ref) [] (evaluatedAt.getD now))
      | some c =>
          .ok (.inl (if c.type.isThread then .threadParent (g.rolesOf actor.ref) c
            else ofOverwriteChannel (g.rolesOf actor.ref) c))
  | .threadParent held thread => do
      let parent ← g.threadParent thread
      .ok (.inl (ofOverwriteChannel held parent))
  | .category held channel => do
      let category ← g.overwriteSourceChannel channel
      .ok (.inl (.overwrites held category))
  | .overwrites held channel =>
      .ok (conclude rows actor held (g.ownOverwrites channel.id) (evaluatedAt.getD now))
  | .threadMember held applied thread current =>
      let read := rows.permissionRows held applied
        ((thread.id, actor.ref) ∈ g.threadMembers)
      .ok (.inr (read.restrict actor (read.resolve actor current)))

end PermissionReading

/-! ## Requests -/

/-- Where a request stands. The lock is held from `evaluate` to `release`;
a calculation that holds no lock has no `evaluated_at`. -/
inductive Stage where
  | loading (channel : Option Channel) (guild : Option GuildRow)
  | consult (rows : Loaded)
  | lock (rows : Loaded)
  | stale (rows : Loaded)
  | poll (rows : Loaded) (left : Nat)
  | evaluate (rows : Loaded)
  | calculate (rows : Loaded) (evaluatedAt : Option Nat) (reading : PermissionReading)
  | store (rows : Loaded) (evaluatedAt permissions : Nat)
  | release (rows : Loaded) (result : Except GuildError Nat)
  | served (rows : Loaded) (permissions servedAt : Nat)
  | staleZero (rows : Loaded)
  | finished (result : Except GuildError Nat)
deriving DecidableEq

/-- A call for a human member; `scope` is a channel, or the guild. -/
structure PermissionRequest where
  actor : UserRef
  scope : Option Nat
  stage : Stage
  first : Option Nat
  since : Nat
  last : Nat
deriving DecidableEq

def human (ref : UserRef) : User := { ref := ref, accountType := .human, disabled := false }

/-- One guild with its cache. -/
structure CacheSystem where
  past : List Guild
  guild : Guild
  clock : Nat
  entries : List (Expiring PermissionKey Nat)
  staleEntries : List (Expiring (UserRef × Option Nat) Nat)
  locks : List (Expiring PermissionKey Nat)
  requests : List PermissionRequest
deriving DecidableEq

inductive CacheInput where
  | mutate (mutation : PermissionMutation)
  | tick (elapsed : Nat)
  | call (actor : UserRef) (scope : Option Nat)
  | loadChannel (request : Nat)
  | loadGuild (request : Nat)
  | loadMember (request : Nat)
  | proceed (request : Nat)

namespace PermissionRequest

/-- The request has read from the state at `index`. -/
def read (q : PermissionRequest) (index : Nat) (stage : Stage) : PermissionRequest :=
  { q with stage := stage, first := some (q.first.getD index), last := index }

def withStage (q : PermissionRequest) (stage : Stage) : PermissionRequest :=
  { q with stage := stage }

end PermissionRequest

namespace CacheSystem

def init (g : Guild) (now : Nat) : CacheSystem :=
  { past := [], guild := g, clock := now, entries := [], staleEntries := [], locks := []
    requests := [] }

/-- The committed states, oldest first. -/
def history (s : CacheSystem) : List Guild := s.past ++ [s.guild]

/-- The place of the present state in the history. -/
def present (s : CacheSystem) : Nat := s.past.length

def setRequest (s : CacheSystem) (r : Nat) (q : PermissionRequest) : CacheSystem :=
  { s with requests := s.requests.set r q }

/-! ### Loads -/

def loadChannel (s : CacheSystem) (q : PermissionRequest) : Option PermissionRequest :=
  match q.stage, q.scope with
  | .loading none guild, some id =>
      match (s.guild.channel? id).filter fun c =>
          !c.unavailable && (s.guild.member? q.actor).isSome with
      | none => some (q.withStage (.finished (.error .channelNotFound)))
      | some c => some (q.read s.present (.loading (some c) guild))
  | _, _ => none

def loadGuild (s : CacheSystem) (q : PermissionRequest) : Option PermissionRequest :=
  match q.stage with
  | .loading channel none =>
      some { q.read s.present (.loading channel (some s.guild.toGuildRow)) with since := s.present }
  | _ => none

/-- The first statement of `get_permissions`. -/
def loadMember (s : CacheSystem) (q : PermissionRequest) : Option PermissionRequest :=
  match q.stage with
  | .loading channel (some guild) =>
      if channel.isSome = q.scope.isSome then
        match s.guild.member? q.actor with
        | none => some (q.withStage (.finished (.error .guildNotFound)))
        | some member => some (q.read s.present (.consult ⟨channel, guild, member⟩))
      else none
  | _ => none

/-! ### `get_permissions` -/

/-- `redis.get(key)`, with what follows if there is nothing. -/
def lookup (s : CacheSystem) (q : PermissionRequest) (rows : Loaded) (otherwise : Stage) : Stage :=
  match Expiring.get s.entries (rows.key q.actor) s.clock with
  | some permissions => .served rows permissions s.clock
  | none => otherwise

/-- `redis.set(lock_key, owner, ex=5, nx=True)` -/
def acquire (s : CacheSystem) (r : Nat) (q : PermissionRequest) (rows : Loaded) : CacheSystem :=
  match Expiring.get s.locks (rows.key q.actor) s.clock with
  | some _ => s.setRequest r (q.withStage (.stale rows))
  | none =>
      let locks := Expiring.set s.locks (rows.key q.actor) r (s.clock + 5 * second)
      { s with locks := locks }.setRequest r (q.withStage (.evaluate rows))

/-- A stale denial is served, a stale grant is not. -/
def checkStale (s : CacheSystem) (q : PermissionRequest) (rows : Loaded) : Stage :=
  if Expiring.get s.staleEntries (q.actor, q.scope) s.clock = some 0 then .staleZero rows
  else .poll rows 20

def calculate (s : CacheSystem) (q : PermissionRequest) (rows : Loaded) (evaluatedAt : Option Nat)
    (reading : PermissionReading) : PermissionRequest :=
  match reading.step s.guild (human q.actor) rows evaluatedAt s.clock, evaluatedAt with
  | .error e, none => q.withStage (.finished (.error e))
  | .error e, some _ => q.withStage (.release rows (.error e))
  | .ok (.inl next), _ => q.read s.present (.calculate rows evaluatedAt next)
  | .ok (.inr permissions), none => q.read s.present (.finished (.ok permissions))
  | .ok (.inr permissions), some t => q.read s.present (.store rows t permissions)

/-- The pipeline of the two `set` commands. -/
def store (s : CacheSystem) (q : PermissionRequest) (rows : Loaded)
    (evaluatedAt permissions : Nat) : CacheSystem :=
  let ttl := permissionCacheTtl rows.member evaluatedAt
  { s with
    entries := Expiring.set s.entries (rows.key q.actor) permissions (s.clock + ttl * second)
    staleEntries := Expiring.set s.staleEntries (q.actor, q.scope) permissions
      (s.clock + (ttl + 5) * second) }

/-- `RELEASE_PERMISSION_LOCK`: only the owner's lock is deleted. -/
def unlock (s : CacheSystem) (r : Nat) (key : PermissionKey) : CacheSystem :=
  if Expiring.get s.locks key s.clock = some r then
    { s with locks := Expiring.delete s.locks key }
  else s

def proceed (s : CacheSystem) (r : Nat) (q : PermissionRequest) : Option CacheSystem :=
  match q.stage with
  | .consult rows => some (s.setRequest r (q.withStage (s.lookup q rows (.lock rows))))
  | .lock rows => some (s.acquire r q rows)
  | .stale rows => some (s.setRequest r (q.withStage (s.checkStale q rows)))
  | .poll rows 0 => some (s.setRequest r (q.withStage (.calculate rows none .roles)))
  | .poll rows (left + 1) =>
      some (s.setRequest r (q.withStage (s.lookup q rows (.poll rows left))))
  | .evaluate rows =>
      some (s.setRequest r (q.withStage (.calculate rows (some s.clock) .roles)))
  | .calculate rows evaluatedAt reading =>
      some (s.setRequest r (s.calculate q rows evaluatedAt reading))
  | .store rows evaluatedAt permissions =>
      some ((s.store q rows evaluatedAt permissions).setRequest r
        (q.withStage (.release rows (.ok permissions))))
  | .release rows result =>
      some ((s.unlock r (rows.key q.actor)).setRequest r (q.withStage (.finished result)))
  | _ => none

def step (s : CacheSystem) (input : CacheInput) : Option CacheSystem :=
  match input with
  | .mutate mutation =>
      (mutation.commit s.guild s.clock).toOption.map fun g =>
        { s with past := s.past ++ [s.guild], guild := g }
  | .tick elapsed => some { s with clock := s.clock + elapsed }
  | .call actor scope =>
      some { s with requests := s.requests ++
        [{ actor := actor, scope := scope, stage := .loading none none, first := none, since := 0
           last := 0 }] }
  | .loadChannel r =>
      (s.requests[r]?).bind fun q => (s.loadChannel q).map fun q' => s.setRequest r q'
  | .loadGuild r => (s.requests[r]?).bind fun q => (s.loadGuild q).map fun q' => s.setRequest r q'
  | .loadMember r =>
      (s.requests[r]?).bind fun q => (s.loadMember q).map fun q' => s.setRequest r q'
  | .proceed r => (s.requests[r]?).bind fun q => s.proceed r q

end CacheSystem

end Kaede
