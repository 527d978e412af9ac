import Mathlib.Data.List.AList
import Kaede.Requests
import Kaede.Runs
import Kaede.Shared

/-!
# Room encryption operations

`_propose_room_operation` and `_commit_room_operation` of
`backend/app/api/e2ee.py` on one room. A proposal runs over several
transactions: it records the operation, checks the participants, claims
key packages (with network calls in between) and stores what it prepared.
An activation is one transaction.

The session keeps the row object it loaded in its first transaction
(`expire_on_commit=False`), and none of the later reads refreshes it, so a
proposal carries its own copy of the row. What it writes back goes to the
stored row.

Digests stand for the data they hash. Tokens, key packages and MLS
messages are numbers. What the caller's permissions, devices and account
vault say is read from the `RoomAccess` of a request.
-/

namespace Kaede

inductive OperationKind where
  | activate
  | rekey
deriving DecidableEq, Repr

inductive OperationStatus where
  | claiming
  | prepared
  | committed
  | failed
deriving DecidableEq, Repr

inductive EncryptionMode where
  | plaintext
  | e2ee
deriving DecidableEq, Repr

inductive EncryptionState where
  | plaintext
  | legacy
  | proposed
  | activating
  | active
  | rekeying
  | failed
deriving DecidableEq, Repr

/-- The prefix of a device id tells whose device it is. -/
inductive DeviceKind where
  | ked
  | kbe
  | kwe
deriving DecidableEq, Repr

structure Device where
  kind : DeviceKind
  token : Nat
deriving DecidableEq, Repr

structure KeyPackage where
  device : Device
  data : Nat
deriving DecidableEq, Repr

/-- The encryption columns of the room's channel row. -/
structure RoomPolicy where
  mode : EncryptionMode
  state : EncryptionState
  generation : Nat
  groupId : Option Nat
  epoch : Option Nat
  activatedAt : Option Nat
deriving DecidableEq, Repr

structure ProposalRequest where
  kind : OperationKind
  operationId : Nat
  actor : UserRef
  senderDevice : Device
deriving DecidableEq, Repr

structure ActivationPayload where
  operationId : Nat
  senderDevice : Device
  policyGeneration : Nat
  epoch : Nat
  groupId : Nat
  commit : Nat
  welcome : Nat
  vaultRevision : Nat
  vaultDigest : Nat
deriving DecidableEq, Repr

structure ActivationRequest where
  kind : OperationKind
  actor : UserRef
  payload : ActivationPayload
deriving DecidableEq, Repr

structure PreparedResponse where
  operationId : Nat
  mode : EncryptionMode
  state : EncryptionState
  generation : Nat
  groupId : Nat
  keyPackages : List KeyPackage
deriving DecidableEq, Repr

structure CommittedResponse where
  operationId : Nat
  policy : RoomPolicy
  controls : List Nat
deriving DecidableEq, Repr

/-- A row of `e2ee_room_operations`. -/
structure RoomOperation where
  id : Nat
  room : Nat
  actor : UserRef
  senderDevice : Device
  kind : OperationKind
  status : OperationStatus
  requestDigest : ProposalRequest
  basePolicyGeneration : Nat
  policyGeneration : Nat
  groupId : Nat
  consentRequestId : Option Nat
  participantRefs : List UserRef
  keyPackages : List KeyPackage
  preparedResponse : Option PreparedResponse
  activationRequestDigest : Option (OperationKind × ActivationPayload)
  preparedVaultRevision : Option Nat
  preparedVaultDigest : Option Nat
  committedResponse : Option CommittedResponse
  expiresAt : Nat
  committedAt : Option Nat
deriving DecidableEq, Repr

inductive RoomError where
  | channelNotFound
  | missingPermissions
  | authorityRemote
  | groupDmOwnerRequired
  | deviceNotFound
  | vaultAttestationRequired
  | vaultLeaseExpired
  | vaultContextMismatch
  | notTextChannel
  | crosspostUnsupported
  | operationConflict
  | operationExpired
  | operationInProgress (operationId : Nat)
  | operationNotFound
  | operationStale
  | policyContextMismatch
  | dmConsentRequired
  | dmRequestStale
  | noOtherDevices
  | mediaRotationUnavailable
  | integrityError
deriving DecidableEq, Repr

/-- `ROOM_OPERATION_TTL`, in seconds. -/
def roomOperationTtl : Nat := 30 * 60

namespace RoomOperation

/-- The rows the partial unique index of the table covers. -/
def active (op : RoomOperation) : Bool :=
  op.status = .claiming || op.status = .prepared

/-- `_operation_policy` inside the prepared response. -/
def prepare (op : RoomOperation) (packages : List KeyPackage) : PreparedResponse :=
  { operationId := op.id
    mode := match op.kind with | .activate => .plaintext | .rekey => .e2ee
    state := match op.kind with | .activate => .proposed | .rekey => .rekeying
    generation := op.policyGeneration
    groupId := op.groupId
    keyPackages := packages }

/-- The devices of one kind among the claimed key packages. -/
def devices (op : RoomOperation) (kind : DeviceKind) : List Device :=
  (op.keyPackages.map KeyPackage.device).filter fun d => d.kind = kind

end RoomOperation

/-- Equality of two device lists as sets. -/
def sameDevices (xs ys : List Device) : Bool := xs.all (· ∈ ys) && ys.all (· ∈ xs)

/-- `valid_context`: the policy a new operation of this kind starts from. -/
def RoomPolicy.admits (policy : RoomPolicy) : OperationKind → Bool
  | .activate => policy.mode = .plaintext && (policy.state = .plaintext || policy.state = .failed)
  | .rekey => policy.mode = .e2ee && (policy.state = .active || policy.state = .rekeying)

/-- Where a proposal stands after its first transaction, with the session's
copy of the row. -/
inductive ProposalPc where
  | checking
  | claiming
deriving DecidableEq, Repr

structure Proposal where
  pc : ProposalPc
  operation : RoomOperation
deriving DecidableEq, Repr

/-- One successful activation. -/
structure Commit where
  request : ActivationRequest
  generationBefore : Nat
  generationAfter : Nat
  response : CommittedResponse
deriving DecidableEq, Repr

structure Room where
  room : Nat
  now : Nat
  policy : RoomPolicy
  ops : AList fun _ : Nat => RoomOperation
  /-- Proposals between their transactions, by request. -/
  proposals : Nat → Option Proposal
  /-- Every activation that committed, newest first; no step reads it. -/
  commits : List Commit

/-- What a request's checks find before they look the operation up. -/
structure RoomAccess where
  /-- The request comes from a webhook with its own authorization. -/
  automation : Bool
  /-- The caller's home is this instance. -/
  actorLocal : Bool
  senderDeviceActive : Bool
  /-- `lock_local_channel_mutation` finds the room. -/
  channelFound : Bool
  /-- `require_room_policy_authority` -/
  policyAuthority : Except RoomError Unit
deriving DecidableEq

/-- The account vault of a local caller: the lease token the request
carries, the lease that Redis holds, and the stored revision and digest. -/
structure AccountVault where
  leaseToken : Option Nat
  storedLease : Option Nat
  stored : Option (Nat × Nat)
deriving DecidableEq, Repr

/-- What the first transaction of a proposal reads besides the operations. -/
structure ProposalContext where
  access : RoomAccess
  messageCapable : Bool
  crosspost : Bool
  consent : Except RoomError (Option Nat)
  participants : List UserRef
  groupId : Nat

/-- What an activation reads besides the operation and the policy. -/
structure ActivationContext where
  /-- `load_channel_access` and the first `require_room_policy_authority`. -/
  loaded : Except RoomError Unit
  access : RoomAccess
  vault : AccountVault
  /-- `actor_home_attested` -/
  homeAttested : Bool
  consent : Except RoomError (Option Nat)
  participants : List UserRef
  botDevices : List Device
  webhookDevices : List Device
  mediaRotated : Bool
  controls : List Nat

/-- `require_active_sender_device` -/
def RoomAccess.senderDevice (a : RoomAccess) : Except RoomError Unit :=
  ensure (a.senderDeviceActive = true) .deviceNotFound

/-- The checks of a proposal before the operation is looked up. -/
def RoomAccess.checkProposal (a : RoomAccess) : Except RoomError Unit := do
  ensure (a.channelFound = true) .channelNotFound
  if a.automation then .ok () else a.policyAuthority
  if a.actorLocal && !a.automation then a.senderDevice else .ok ()

/-- `require_prepared_account_vault` -/
def AccountVault.requirePrepared (v : AccountVault) (payload : ActivationPayload) :
    Except RoomError Unit := do
  let token ← found v.leaseToken .vaultAttestationRequired
  ensure (v.storedLease = some token) .vaultLeaseExpired
  ensure (v.stored = some (payload.vaultRevision, payload.vaultDigest)) .vaultContextMismatch

/-- The checks of an activation before the operation is looked up. -/
def ActivationContext.check (c : ActivationContext) (payload : ActivationPayload) :
    Except RoomError Unit := do
  if c.access.automation then .ok ()
  else do
    c.loaded
    if c.access.actorLocal then do
      c.access.senderDevice
      c.vault.requirePrepared payload
    else ensure (c.homeAttested = true) .vaultAttestationRequired
  ensure (c.access.channelFound = true) .channelNotFound
  if c.access.automation then .ok () else c.access.policyAuthority

namespace Room

def operation (s : Room) (id : Nat) : Option RoomOperation := s.ops.lookup id

/-- Another row of the same room that the unique index covers. -/
def occupied (s : Room) (id room : Nat) : Bool :=
  s.ops.entries.any fun e => e.1 ≠ id && (e.2.active && e.2.room = room)

/-- Write one operation row; `none` when the unique index refuses it. -/
def store (s : Room) (op : RoomOperation) : Option Room :=
  if op.active && s.occupied op.id op.room then none
  else some { s with ops := s.ops.insert op.id op }

def setProposal (s : Room) (request : Nat) (p : Option Proposal) : Room :=
  { s with proposals := fun r => if r = request then p else s.proposals r }

/-- The unfinished operation of the room, if there is one. -/
def activeOperation (s : Room) : Option RoomOperation :=
  (s.ops.entries.map Sigma.snd).find? fun op => op.active && op.room = s.room

def expired (s : Room) (op : RoomOperation) : Bool := op.expiresAt ≤ s.now

/-- The new row of a first proposal. -/
def newOperation (s : Room) (q : ProposalRequest) (c : ProposalContext) (consent : Option Nat) :
    RoomOperation :=
  { id := q.operationId, room := s.room, actor := q.actor, senderDevice := q.senderDevice
    kind := q.kind, status := .claiming, requestDigest := q
    basePolicyGeneration := s.policy.generation
    policyGeneration := s.policy.generation + 1
    groupId := c.groupId, consentRequestId := consent, participantRefs := c.participants
    keyPackages := [], preparedResponse := none, activationRequestDigest := none
    preparedVaultRevision := none, preparedVaultDigest := none, committedResponse := none
    expiresAt := s.now + roomOperationTtl, committedAt := none }

/-- The result of a request that ends here. -/
inductive ProposalOutcome where
  | returned (response : Option PreparedResponse)
  | raised (e : RoomError)
  | continues
deriving DecidableEq, Repr

/-- The branch of the first transaction for an operation id already stored. -/
def resume (s : Room) (request : Nat) (q : ProposalRequest) (op : RoomOperation) :
    Room × ProposalOutcome :=
  if op.kind ≠ q.kind ∨ op.room ≠ s.room ∨ op.actor ≠ q.actor
      ∨ op.senderDevice ≠ q.senderDevice ∨ op.requestDigest ≠ q then
    (s, .raised .operationConflict)
  else
    match op.status with
    | .prepared => (s, .returned op.preparedResponse)
    | .committed => (s, .returned op.preparedResponse)
    | .failed => (s, .raised .operationExpired)
    | .claiming =>
        if s.expired op then
          match s.store { op with status := .failed } with
          | some s' => (s', .raised .operationExpired)
          | none => (s, .raised .integrityError)
        else
          (s.setProposal request (some { pc := .checking, operation := op }), .continues)

/-- The branch of the first transaction for a new operation id. -/
def create (s : Room) (request : Nat) (q : ProposalRequest) (c : ProposalContext) :
    Room × ProposalOutcome :=
  if s.policy.admits q.kind = false then (s, .raised .policyContextMismatch)
  else
    let cleared : Except RoomError Room :=
      match s.activeOperation with
      | none => .ok s
      | some op =>
          if s.expired op then
            match s.store { op with status := .failed } with
            | some s' => .ok s'
            | none => .error .integrityError
          else .error (.operationInProgress op.id)
    let consent : Except RoomError (Option Nat) :=
      match q.kind with
      | .activate => c.consent
      | .rekey => .ok none
    match cleared, consent with
    | .error e, _ => (s, .raised e)
    | .ok _, .error e => (s, .raised e)
    | .ok s', .ok consentRequestId =>
        let op := s.newOperation q c consentRequestId
        match s'.store op with
        | none => (s, .raised .integrityError)
        | some s' =>
            (s'.setProposal request (some { pc := .checking, operation := op }), .continues)

/-- The first transaction of `_propose_room_operation`. -/
def propose (s : Room) (request : Nat) (q : ProposalRequest) (c : ProposalContext) :
    Room × ProposalOutcome :=
  match c.access.checkProposal with
  | .error e => (s, .raised e)
  | .ok () =>
    if c.messageCapable = false then (s, .raised .notTextChannel)
    else if q.kind = .activate ∧ c.crosspost then (s, .raised .crosspostUnsupported)
    else
      match s.operation q.operationId with
      | some op => s.resume request q op
      | none => s.create request q c

/-- Write a new status through the session's copy: the stored row changes,
whatever it holds by now. -/
def overwrite (s : Room) (id : Nat) (f : RoomOperation → RoomOperation) : Option Room :=
  match s.operation id with
  | none => none
  | some stored => s.store (f stored)

/-- A later transaction of a proposal that gives the operation up. -/
def giveUp (s : Room) (request : Nat) (p : Proposal) (e : RoomError) : Room × ProposalOutcome :=
  match (s.setProposal request none).overwrite p.operation.id
      fun stored => { stored with status := .failed } with
  | some s' => (s', .raised e)
  | none => (s.setProposal request none, .raised .integrityError)

/-- The participant check; `participants` is `none` when a user is gone. -/
def check (s : Room) (request : Nat) (p : Proposal) (participants : Option (List UserRef)) :
    Room × ProposalOutcome :=
  if participants ≠ some p.operation.participantRefs then
    s.giveUp request p .operationStale
  else (s.setProposal request (some { p with pc := .claiming }), .continues)

/-- The last transaction, once the key packages are there. -/
def finish (s : Room) (request : Nat) (p : Proposal) (packages : List KeyPackage) :
    Room × ProposalOutcome :=
  if packages = [] then s.giveUp request p .noOtherDevices
  else
    let s := s.setProposal request none
    match p.operation.status with
    | .prepared => (s, .returned p.operation.preparedResponse)
    | .committed => (s, .returned p.operation.preparedResponse)
    | .failed => (s, .raised .operationConflict)
    | .claiming =>
        let response := p.operation.prepare packages
        match s.overwrite p.operation.id fun stored =>
            { stored with
              status := .prepared, keyPackages := packages, preparedResponse := some response } with
        | some s' => (s', .returned (some response))
        | none => (s, .raised .integrityError)

/-! ## Activation -/

/-- Mark the operation failed and refuse the activation. -/
def fail (s : Room) (op : RoomOperation) (e : RoomError) :
    Room × Except RoomError CommittedResponse :=
  match s.store { op with status := .failed } with
  | some s' => (s', .error e)
  | none => (s, .error .integrityError)

/-- The consent check of an activation: what it raises, if anything. -/
def consentError (op : RoomOperation) (q : ActivationRequest) (c : ActivationContext) :
    Option RoomError :=
  match q.kind, c.consent with
  | .rekey, _ => none
  | .activate, .error e => some e
  | .activate, .ok request => if request = op.consentRequestId then none else some .dmRequestStale

def expectedEpoch (s : Room) : OperationKind → Nat
  | .activate => 1
  | .rekey => max 1 (s.policy.epoch.getD 0 + 1)

/-- The devices the activation found differ from those it prepared for. -/
def devicesChanged (op : RoomOperation) (q : ActivationRequest) (c : ActivationContext) : Bool :=
  let webhooks :=
    if q.payload.senderDevice.kind = .kwe then q.payload.senderDevice :: op.devices .kwe
    else op.devices .kwe
  !(sameDevices c.botDevices (op.devices .kbe)) || !(sameDevices c.webhookDevices webhooks)

def committedPolicy (s : Room) (op : RoomOperation) (kind : OperationKind) : RoomPolicy :=
  { mode := .e2ee, state := .active, generation := op.policyGeneration
    groupId := some op.groupId, epoch := some (s.expectedEpoch kind)
    activatedAt := match kind with | .activate => some s.now | .rekey => s.policy.activatedAt }

/-- The final write of an activation. -/
def commit (s : Room) (op : RoomOperation) (q : ActivationRequest) (c : ActivationContext) :
    Room × Except RoomError CommittedResponse :=
  let policy := s.committedPolicy op q.kind
  let response : CommittedResponse :=
    { operationId := op.id, policy := policy, controls := c.controls }
  match s.store { op with
      status := .committed
      activationRequestDigest := some (q.kind, q.payload)
      preparedVaultRevision := some q.payload.vaultRevision
      preparedVaultDigest := some q.payload.vaultDigest
      committedResponse := some response
      committedAt := some s.now } with
  | none => (s, .error .integrityError)
  | some s' => ({ s' with policy := policy }, .ok response)

/-- The checks of a prepared operation, in the order of the source. -/
def activatePrepared (s : Room) (op : RoomOperation) (q : ActivationRequest)
    (c : ActivationContext) : Room × Except RoomError CommittedResponse :=
  if op.policyGeneration ≠ q.payload.policyGeneration ∨ op.groupId ≠ q.payload.groupId
      ∨ q.payload.epoch ≠ s.expectedEpoch q.kind then
    (s, .error .policyContextMismatch)
  else if s.policy.admits q.kind = false ∨ s.policy.generation ≠ op.basePolicyGeneration then
    (s, .error .policyContextMismatch)
  else if c.participants ≠ op.participantRefs then s.fail op .operationStale
  else if devicesChanged op q c then s.fail op .operationStale
  else if c.mediaRotated = false then (s, .error .mediaRotationUnavailable)
  else s.commit op q c

/-- `_commit_room_operation` from the lookup on. -/
def activateFound (s : Room) (q : ActivationRequest) (c : ActivationContext) :
    Room × Except RoomError CommittedResponse :=
  match s.operation q.payload.operationId with
  | none => (s, .error .operationNotFound)
  | some op =>
      if op.kind ≠ q.kind ∨ op.room ≠ s.room ∨ op.actor ≠ q.actor
          ∨ op.senderDevice ≠ q.payload.senderDevice then
        (s, .error .operationConflict)
      else if op.status = .committed then
        if op.activationRequestDigest ≠ some (q.kind, q.payload) then
          (s, .error .operationConflict)
        else
          match op.committedResponse with
          | some response => (s, .ok response)
          | none => (s, .error .integrityError)
      else
        match consentError op q c with
        | some e => s.fail op e
        | none =>
            if op.status ≠ .prepared then (s, .error .operationExpired)
            else if s.expired op then s.fail op .operationExpired
            else s.activatePrepared op q c

/-- `_commit_room_operation` at the room's authority. -/
def activate (s : Room) (q : ActivationRequest) (c : ActivationContext) :
    Room × Except RoomError CommittedResponse :=
  match c.check q.payload with
  | .error e => (s, .error e)
  | .ok () => s.activateFound q c

def storedStatus (s : Room) (id : Nat) : Option OperationStatus :=
  (s.operation id).map RoomOperation.status

/-- The commit a transaction made, if it made one: the activation is
answered and its operation was not committed before. -/
def commitOf (s : Room) (q : ActivationRequest)
    (after : Room × Except RoomError CommittedResponse) : List Commit :=
  match after.2 with
  | .error _ => []
  | .ok response =>
      if s.storedStatus q.payload.operationId = some .committed then []
      else [{ request := q, generationBefore := s.policy.generation
              generationAfter := after.1.policy.generation, response := response }]

/-- The room after an activation, with the commit on record. -/
def logged (s : Room) (q : ActivationRequest) (after : Room × Except RoomError CommittedResponse) :
    Room :=
  { after.1 with commits := s.commitOf q after ++ after.1.commits }

end Room

inductive RoomInput where
  | elapse (seconds : Nat)
  | pause
  | propose (request : Nat) (q : ProposalRequest) (c : ProposalContext)
  | check (request : Nat) (participants : Option (List UserRef))
  | claimed (request : Nat) (packages : List KeyPackage)
  | abandon (request : Nat)
  | activate (q : ActivationRequest) (c : ActivationContext)

namespace Room

/-- One transaction on the room; `pause` is an access change that sends an
active room into rekeying. -/
def step (s : Room) : RoomInput → Option Room
  | .elapse seconds => some { s with now := s.now + seconds }
  | .pause =>
      if s.policy.mode = .e2ee ∧ s.policy.state = .active then
        some { s with policy := { s.policy with state := .rekeying } }
      else none
  | .propose request q c =>
      match s.proposals request with
      | some _ => none
      | none => some (s.propose request q c).1
  | .check request participants =>
      match s.proposals request with
      | some ⟨.checking, op⟩ => some (s.check request ⟨.checking, op⟩ participants).1
      | _ => none
  | .claimed request packages =>
      match s.proposals request with
      | some ⟨.claiming, op⟩ => some (s.finish request ⟨.claiming, op⟩ packages).1
      | _ => none
  | .abandon request => some (s.setProposal request none)
  | .activate q c => some (s.logged q (s.activate q c))

/-- A room with no operation yet. -/
def init (room : Nat) (policy : RoomPolicy) : Room :=
  { room := room, now := 0, policy := policy, ops := ∅, proposals := fun _ => none, commits := [] }

end Room

end Kaede
