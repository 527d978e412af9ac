import Mathlib.Data.Finset.Card
import Kaede.GroupConversation
import Kaede.RemoteProfiles

/-!
# A replicated conversation

`replicate_conversation` of `backend/app/federation/replication.py` on the
rows of one conversation: its own row, its channel and its participants.
Everything else it reads (users, tombstones, storage accounting) may have
changed between two calls and comes with each of them as `Surroundings`. A
call that raises is rolled back.

The encryption policy is checked against the stored one and written before
the state's version is looked at.
-/

namespace Kaede

namespace Replication

inductive ReplicaError where
  | value (message : String)
  | networkError (message : String)
  | dmQuotaExceeded (scope : String)
  | profile (error : ProfileError)
  | integrity
deriving DecidableEq, Repr

/-- A check of the policy module that fails raises a `ValueError`. -/
def valueError {α : Type} : Except String α → Except ReplicaError α
  | .ok a => .ok a
  | .error message => .error (.value message)

/-! ## Parsing -/

/-- `database_snowflake`. -/
def databaseSnowflake (value : WireValue) (field : String) : Except ReplicaError Nat :=
  match value with
  | .str s => do
      ensure (decimalDigits s) (.value (field ++ " must be a decimal snowflake"))
      let parsed := Nat.ofDigitChars 10 s.toList 0
      ensure (parsed ≤ maxDatabaseSnowflake) (.value (field ++ " is outside the database range"))
      .ok parsed
  | _ => .error (.value (field ++ " must be a decimal snowflake"))

/-- `str.isspace`. -/
def isSpace (c : Char) : Bool :=
  c ∈ [' ', '\t', '\n', '\x0b', '\x0c', '\r', '\x1c', '\x1d', '\x1e', '\x1f', '\x85', '\xa0',
    '\u1680', '\u2000', '\u2001', '\u2002', '\u2003', '\u2004', '\u2005', '\u2006', '\u2007',
    '\u2008', '\u2009', '\u200a', '\u2028', '\u2029', '\u202f', '\u205f', '\u3000']

/-- `str.strip`. -/
def strip (s : String) : String :=
  String.ofList (((s.toList.dropWhile isSpace).reverse.dropWhile isSpace).reverse)

/-- The only letter outside ASCII that `str.lower` maps into it is the Kelvin
sign. -/
def lowerChar (c : Char) : Char := if c = '\u212a' then 'k' else c.toLower

/-- `value.rstrip(".").lower()`. -/
def lowerDomain (value : String) : List Char :=
  ((value.toList.reverse.dropWhile (· = '.')).reverse).map lowerChar

def domainLetter (c : Char) : Bool := ('a' ≤ c && c ≤ 'z') || c.isDigit

def domainLabel (label : List Char) : Bool :=
  1 ≤ label.length && label.length ≤ 63 && label.all (fun c => domainLetter c || c = '-') &&
    label.head?.all domainLetter && label.getLast?.all domainLetter

/-- `DOMAIN_RE`. -/
def domainPattern (domain : List Char) : Bool :=
  domain.length ≤ 253 && 2 ≤ (domain.splitOn '.').length && (domain.splitOn '.').all domainLabel

/-- `normalize_domain`. -/
def normalizeDomain (value : String) : Except ReplicaError String := do
  ensure (domainPattern (lowerDomain value)) (.networkError "invalid federation domain")
  .ok (String.ofList (lowerDomain value))

/-! ## Rows and payloads -/

structure DMConversation where
  id : Nat
  originDomain : String
  pairKey : String
  type : String
  authorityDomain : String
  owner : Option UserRef
  stateVersion : Nat
deriving DecidableEq, Repr

structure DMChannel where
  guildId : Option Nat := none
  type : Nat := 1
  name : Option String
  policy : ChannelPolicy := plaintextPolicy
deriving DecidableEq, Repr

/-- The rows under the keys of one conversation. -/
structure Replica where
  conversation : Option DMConversation
  channel : Option DMChannel
  participants : Finset UserRef
deriving DecidableEq

structure OwnerPayload where
  id : WireValue
  originDomain : String
deriving DecidableEq, Repr

/-- A conversation object; `encryptionPolicy` and `owner` tell apart an
absent value from one that is not an object. -/
structure ConversationPayload where
  id : WireValue
  originDomain : String
  pairKey : String
  type : String := "direct"
  authorityDomain : String
  owner : Option OwnerPayload := none
  name : WireValue := .null
  stateVersion : WireValue := .null
  encryptionPolicy : Option (Option PolicyPayload) := none
deriving DecidableEq, Repr

/-- What a call reads besides the conversation's rows: the user table and
the handles drawn for opaque rows, whether the room has a tombstone, how
the home's instance row is found or made, the storage accounts, and whether
another conversation has the id. `groupDmKey` is the hash of
`group_dm_key`. -/
structure Surroundings where
  users : Users
  aliases : UserRef → List String
  terminal : Bool
  instanceRecord : Except ReplicaError Unit
  retainedByAuthority : Nat
  maxConversationsPerAuthority : Nat
  retainedByOrigin : Nat
  maxConversationsPerRemoteOrigin : Nat
  idTaken : Bool
  groupDmKey : String → Nat → String

/-- One call. -/
structure Delivery where
  env : Surroundings
  conversation : ConversationPayload
  profiles : List RemoteUserProfile

def Delivery.refs (d : Delivery) : Finset UserRef := (d.profiles.map RemoteUserProfile.ref).toFinset

/-! ## The checks -/

/-- `admit_federated_dm_conversation`. -/
def admitFederatedDmConversation (d : Delivery) (known : Bool) : Except ReplicaError Unit :=
  let domains := (d.profiles.map fun p => p.ref.domain).toFinset
  let remoteOrigins := domains.erase d.env.users.localDomain
  if domains.card < 2 then .ok ()
  else do
    ensure (¬ (d.conversation.type = "direct" ∧ remoteOrigins.card ≠ 1))
      (.value "federated direct conversation must have exactly one remote origin")
    if known then .ok ()
    else do
      ensure (d.env.retainedByAuthority < d.env.maxConversationsPerAuthority)
        (.dmQuotaExceeded "authority")
      -- a group is charged to its authority
      ensure ((d.conversation.type = "group" ∧
          d.conversation.authorityDomain = d.env.users.localDomain) ∨
        d.env.retainedByOrigin < d.env.maxConversationsPerRemoteOrigin)
        (.dmQuotaExceeded "remote origin")

/-- The participants' profiles are taken one after another. -/
def upsertParticipants (aliases : UserRef → List String) :
    Users → List RemoteUserProfile → Except ReplicaError Users
  | users, [] => .ok users
  | users, p :: rest =>
      match users.upsertRemoteUser (aliases p.ref) p with
      | .ok users => upsertParticipants aliases users rest
      | .error error => .error (.profile error)

/-- The state of a group conversation that its version is about. -/
@[ext]
structure GroupState where
  owner : Option UserRef
  name : Option String
  participants : Finset UserRef
deriving DecidableEq

def parseName (name : WireValue) : Except ReplicaError (Option String) :=
  match name with
  | .null => .ok none
  | .str s => do
      ensure (1 ≤ (strip s).length ∧ (strip s).length ≤ 100) (.value "group DM name is invalid")
      .ok (some (strip s))
  | _ => .error (.value "group DM name is invalid")

/-- The group's part of the payload. -/
def groupState (d : Delivery) (conversationId : Nat) :
    Except ReplicaError (Stamped GroupState) := do
  let c := d.conversation
  ensure (c.authorityDomain = c.originDomain ∧ 1 ≤ d.profiles.length ∧
    d.profiles.length ≤ maxGroupDmParticipants)
    (.value "group DM authority or participant count is invalid")
  ensure (c.pairKey = d.env.groupDmKey c.authorityDomain conversationId)
    (.value "group DM lookup key is invalid")
  let owner ← found c.owner (.value "group DM owner is missing")
  let ownerId ← databaseSnowflake owner.id "group DM owner id"
  let ownerDomain ← normalizeDomain owner.originDomain
  ensure (⟨ownerId, ownerDomain⟩ ∈ d.refs) (.value "group DM owner is not a participant")
  let name ← parseName c.name
  let version ← databaseSnowflake c.stateVersion "group DM state version"
  ensure (1 ≤ version) (.value "group DM state version is invalid")
  .ok ⟨version, { owner := some ⟨ownerId, ownerDomain⟩, name, participants := d.refs }⟩

/-- A direct conversation has no state of its own. -/
def conversationState (d : Delivery) (conversationId : Nat) :
    Except ReplicaError (Stamped GroupState) :=
  if d.conversation.type = "group" then groupState d conversationId
  else .ok ⟨0, { owner := none, name := none, participants := d.refs }⟩

/-- What the checks leave to write: the conversation's row, the channel with
the new policy, and its name before. -/
structure Checked where
  users : Users
  existing : DMConversation
  storedName : Option String
  channel : DMChannel
  state : Stamped GroupState

/-- The row under the pair key, inserted if there is none. -/
def existingRow (r : Replica) (d : Delivery) (conversationId : Nat) (owner : Option UserRef) :
    Except ReplicaError DMConversation :=
  match r.conversation with
  | some existing => .ok existing
  | none =>
      if d.env.idTaken then .error .integrity
      else
        let c := d.conversation
        .ok { id := conversationId, originDomain := c.originDomain, pairKey := c.pairKey
              type := c.type, authorityDomain := c.authorityDomain, owner, stateVersion := 0 }

def conversationRow (r : Replica) (d : Delivery) (conversationId : Nat) (owner : Option UserRef) :
    Except ReplicaError DMConversation := do
  let c := d.conversation
  let existing ← existingRow r d conversationId owner
  ensure (existing.id = conversationId ∧ existing.originDomain = c.originDomain ∧
    existing.pairKey = c.pairKey ∧ existing.authorityDomain = c.authorityDomain ∧
    existing.type = c.type)
    (.value "DM conversation identity conflicts with an existing conversation")
  .ok existing

def channelRow (r : Replica) (name : Option String) : Except ReplicaError DMChannel :=
  match r.channel with
  | none => .ok { name }
  | some channel => do
      ensure (channel.guildId = none ∧ channel.type = 1)
        (.value "DM conversation ID conflicts with a non-DM channel")
      .ok channel

/-- A conversation without a policy is not encrypted. -/
def defaultPolicyPayload : PolicyPayload where
  mode := some (.str "plaintext")
  state := some (.str "plaintext")
  generation := some (.str "0")
  protocol := none
  suite := none
  groupId := none
  epoch := none

/-- `replicate_conversation` up to the version gate. -/
def checkConversation (r : Replica) (d : Delivery) : Except ReplicaError Checked := do
  let c := d.conversation
  ensure (c.type = "direct" ∨ c.type = "group") (.value "unsupported DM conversation type")
  let conversationId ← databaseSnowflake c.id "conversation id"
  ensure (¬ (c.type = "group" ∧ d.env.terminal)) (.value "a terminal group DM cannot be recreated")
  admitFederatedDmConversation d r.conversation.isSome
  d.env.instanceRecord
  let users ← upsertParticipants d.env.aliases d.env.users d.profiles
  ensure (d.profiles.map RemoteUserProfile.ref).Nodup
    (.value "DM conversation participants must be unique")
  let policy ← valueError (validateChannelEncryptionPolicy
    (c.encryptionPolicy.getD (some defaultPolicyPayload)))
  let state ← conversationState d conversationId
  let existing ← conversationRow r d conversationId state.value.owner
  let channel ← channelRow r state.value.name
  valueError (validateChannelEncryptionPolicyTransition channel.policy policy "DM")
  .ok { users, existing, storedName := r.channel.bind DMChannel.name
        channel := { channel with policy }, state }

/-- The stored rows get the participants; those that left a group go. -/
def storeParticipants (group : Bool) (stored expected : Finset UserRef) :
    Except ReplicaError (Finset UserRef) := do
  let inserted := stored ∪ expected
  let kept := if group then inserted \ (inserted \ expected) else inserted
  ensure (kept = expected) (.value "DM conversation participant set is inconsistent")
  .ok kept

/-- `replicate_conversation`. -/
def replicateConversation (r : Replica) (d : Delivery) : Except ReplicaError (Users × Replica) := do
  let k ← checkConversation r d
  let unchanged : Replica :=
    { r with conversation := some k.existing, channel := some k.channel }
  if d.conversation.type = "group" then
    if k.state.version < k.existing.stateVersion then .ok (k.users, unchanged)
    else if k.existing.stateVersion = k.state.version ∧ 0 < k.existing.stateVersion then do
      ensure (k.existing.owner = k.state.value.owner ∧ k.storedName = k.state.value.name)
        (.value "group DM state version conflicts with stored state")
      ensure (r.participants = k.state.value.participants)
        (.value "group DM state version conflicts with stored participants")
      .ok (k.users, unchanged)
    else do
      let participants ← storeParticipants true r.participants k.state.value.participants
      .ok (k.users,
        { conversation := some { k.existing with
            owner := k.state.value.owner, stateVersion := k.state.version }
          channel := some { k.channel with name := k.state.value.name }
          participants })
  else do
    let participants ← storeParticipants false r.participants k.state.value.participants
    .ok (k.users, { unchanged with participants })

/-! ## Deliveries -/

def Replica.receive (r : Replica) (d : Delivery) : Replica :=
  ((replicateConversation r d).toOption.map Prod.snd).getD r

def Replica.run (r : Replica) (ds : List Delivery) : Replica := ds.foldl Replica.receive r

/-- The group's state as it is stored. -/
def Replica.group? (r : Replica) : Option (Stamped GroupState) :=
  r.conversation.map fun c =>
    ⟨c.stateVersion, { owner := c.owner, name := r.channel.bind DMChannel.name
                       participants := r.participants }⟩

/-- The state that a delivery carries. -/
def Delivery.state? (d : Delivery) : Option (Stamped GroupState) :=
  (databaseSnowflake d.conversation.id "conversation id" >>= groupState d).toOption

/-- The state of a delivery that passes the checks before the version gate. -/
def Replica.takenAt (r : Replica) (d : Delivery) : List (Stamped GroupState) :=
  ((checkConversation r d).toOption.map Checked.state).toList

def Replica.taken : Replica → List Delivery → List (Stamped GroupState)
  | _, [] => []
  | r, d :: ds => r.takenAt d ++ (r.receive d).taken ds

end Replication

end Kaede
