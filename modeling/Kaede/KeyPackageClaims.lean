import Mathlib.Data.List.Sort
import Kaede.EncryptionPolicy

/-!
# Claiming one-time key packages

`claim_local_room_key_packages`, `claim_local_bot_room_key_packages` and
`claim_room_key_packages` of `backend/app/api/e2ee.py`, with
`claim_bot_e2ee_key_packages` (`bots/e2ee.py`),
`claim_webhook_e2ee_key_packages` (`api/webhook_e2ee.py`) and the
endpoint through which another home claims from this one
(`federation_e2ee_key_packages_claim`).

What a claim reads and never writes is the `Roster`; what it writes is the
`PackageLedger`. The package tables of users, bots and webhooks have the
same columns and disjoint device ids, so they are one table here. A digest
stands for the data it hashes, and a base64url string for its bytes.
-/

namespace Kaede

structure ChannelRef where
  id : Nat
  domain : String
deriving DecidableEq, Repr

structure OperationRef where
  id : Nat
  domain : String
deriving DecidableEq, Repr

/-- `MAX_ROOM_E2EE_DEVICES`. -/
def maxRoomE2eeDevices : Nat := 48

/-- `MAX_BOT_E2EE_DEVICES`. -/
def maxBotE2eeDevices : Nat := 16

/-! ## The rows -/

/-- The columns the device tables of users, bots and webhooks share. The
table constraints bound the two byte strings. -/
structure E2EEDevice where
  id : Device
  owner : UserRef
  identityKey : List UInt8
  credential : List UInt8
  revoked : Bool
  identityKey_length : identityKey.length = 32
  credential_length : credential.length ≤ 16384

structure UserE2EEDevice extends E2EEDevice where
  deviceGeneration : Nat
  id_kind : id.kind = .ked

/-- A bot's device runs on one of the application's workers. -/
structure BotE2EEDevice extends E2EEDevice where
  trusted : Bool
  workerRevoked : Bool
  workerExpiresAt : Option Nat
  id_kind : id.kind = .kbe

structure WebhookE2EEDevice extends E2EEDevice where
  trusted : Bool
  webhookRevoked : Bool
  id_kind : id.kind = .kwe

/-- A bot or webhook device a manager admitted to one channel; `admitted`
is the status being pending or active. -/
structure E2EEParticipation where
  device : Device
  channel : ChannelRef
  admitted : Bool
deriving DecidableEq, Repr

structure RoomUser where
  ref : UserRef
  isLocal : Bool
  isBot : Bool
deriving DecidableEq, Repr

/-- What a home knows of the devices it keeps packages for. -/
structure Roster where
  domain : String
  users : List RoomUser
  userDevices : List UserE2EEDevice
  botDevices : List BotE2EEDevice
  webhookDevices : List WebhookE2EEDevice
  participations : List E2EEParticipation
  /-- The bots with an active application, and the channels where it is
  installed as a participant or has an active grant. -/
  applications : List UserRef
  botGrants : List (UserRef × ChannelRef)
  userDevices_nodup : (userDevices.map (·.id)).Nodup
  botDevices_nodup : (botDevices.map (·.id)).Nodup
  webhookDevices_nodup : (webhookDevices.map (·.id)).Nodup

/-- The claim columns of a package, null together. -/
structure PackageClaim where
  claimedAt : Nat
  claimedBy : Option UserRef
  operation : OperationRef
deriving DecidableEq, Repr

structure E2EEKeyPackage where
  device : Device
  cipherSuite : String
  packageData : List UInt8
  expiresAt : Nat
  createdAt : Nat
  claim : Option PackageClaim
  packageData_length : packageData.length ≤ 32768

/-- One entry of a `key_packages` response. -/
structure ClaimedPackage where
  user : UserRef
  deviceId : Device
  identityKey : List UInt8
  credential : List UInt8
  keyPackage : List UInt8
deriving DecidableEq, Repr

/-- What `protocol_request_digest` hashes, under its two labels. -/
inductive ClaimDigest where
  | package (operation : OperationRef) (channel : ChannelRef) (claimant target : UserRef)
      (excludedDevice : Option Device) (maxDevices : Nat)
  | botPackage (operation : OperationRef) (channel : ChannelRef) (claimant target : UserRef)
      (botDeviceIds : List Device) (maxDevices : Nat)
deriving DecidableEq, Repr

structure E2EEPackageClaimBatch where
  operation : OperationRef
  target : UserRef
  channel : ChannelRef
  claimant : UserRef
  excludedDevice : Option Device
  maxDevices : Nat
  requestDigest : ClaimDigest
  response : List ClaimedPackage
deriving DecidableEq, Repr

/-- The tables a claim writes. -/
structure PackageLedger where
  packages : List E2EEKeyPackage
  batches : List E2EEPackageClaimBatch

inductive ClaimError where
  | remoteDeviceDiscoveryRequired (user : UserRef)
  | participantDeviceMissing (user : Option UserRef)
  | roomDeviceLimit
  | operationConflict
  | keyPackageUnavailable (device : Option Device)
  | persistedClaimInvalid
  | participantHomeUnreachable
  | participantHomeRejected
  | peerResponseInvalid
  | authorityMismatch
  | targetNotFound
  | claimantRestricted
deriving DecidableEq, Repr

/-! ## One package -/

namespace E2EEKeyPackage

/-- Rows of one device differ in their bytes: the primary key of the user
table is the digest of the bytes, the other two have it unique per device. -/
def key (p : E2EEKeyPackage) : Device × List UInt8 := (p.device, p.packageData)

def available (now : Nat) (device : Device) (p : E2EEKeyPackage) : Bool :=
  p.device = device && p.claim.isNone && now < p.expiresAt && p.cipherSuite = e2eeSuiteMls128

/-- The order in which packages are used up. -/
def before (p q : E2EEKeyPackage) : Prop :=
  p.expiresAt < q.expiresAt ∨ p.expiresAt = q.expiresAt ∧ p.createdAt ≤ q.createdAt

instance : DecidableRel before := fun p q =>
  inferInstanceAs (Decidable (p.expiresAt < q.expiresAt ∨ _ ∧ _))

def claimedFor (operation : OperationRef) (p : E2EEKeyPackage) : Bool :=
  p.claim.any fun c => c.operation = operation

end E2EEKeyPackage

namespace PackageLedger

def nextPackage (L : PackageLedger) (now : Nat) (device : Device) : Option E2EEKeyPackage :=
  ((L.packages.filter (·.available now device)).insertionSort E2EEKeyPackage.before).head?

def mark (L : PackageLedger) (package : E2EEKeyPackage) (c : PackageClaim) : PackageLedger :=
  let claimed := fun p : E2EEKeyPackage => { p with claim := some c }
  { L with packages := updateBy E2EEKeyPackage.key package.key claimed L.packages }

/-- Take the next package of a device and mark it. -/
def claimPackage (L : PackageLedger) (now : Nat) (claimedBy : Option UserRef)
    (operation : OperationRef) (device : Device) :
    Except ClaimError (E2EEKeyPackage × PackageLedger) := do
  let package ← found (L.nextPackage now device) (.keyPackageUnavailable (some device))
  return (package, L.mark package ⟨now, claimedBy, operation⟩)

def batch? (L : PackageLedger) (operation : OperationRef) (target : UserRef) :
    Option E2EEPackageClaimBatch :=
  lookupBy (fun b => (b.operation, b.target)) (operation, target) L.batches

def store (L : PackageLedger) (b : E2EEPackageClaimBatch) : PackageLedger :=
  { L with batches := L.batches ++ [b] }

end PackageLedger

/-- The key of the row whose bytes the entry has. -/
def ClaimedPackage.key (c : ClaimedPackage) : Device × List UInt8 := (c.deviceId, c.keyPackage)

/-- The response entry for a device and the package taken from it. -/
def E2EEDevice.claimed (d : E2EEDevice) (user : UserRef) (p : E2EEKeyPackage) : ClaimedPackage :=
  { user, deviceId := d.id, identityKey := d.identityKey, credential := d.credential,
    keyPackage := p.packageData }

/-- `validate_claimed_package`, which returns its argument or raises. The
six fields being strings of the right form is what makes an entry. -/
def ClaimedPackage.valid (expectedUser : UserRef) (c : ClaimedPackage) : Bool :=
  c.user = expectedUser && c.identityKey.length = 32 && c.credential.length ≤ 16384 &&
    c.keyPackage.length ≤ 32768

/-- The answer kept in a batch, if it was stored for this very request. -/
def E2EEPackageClaimBatch.replay (b : E2EEPackageClaimBatch) (digest : ClaimDigest) :
    Except ClaimError (List ClaimedPackage) := do
  ensure (b.requestDigest = digest) .operationConflict
  ensure (b.response.all (·.valid b.target)) .persistedClaimInvalid
  return b.response

/-- Answer from the batch of this operation and target, or claim afresh and
store the batch `b` with what was claimed. -/
def PackageLedger.answer (L : PackageLedger) (b : E2EEPackageClaimBatch)
    (fresh : Except ClaimError (List ClaimedPackage × PackageLedger)) :
    Except ClaimError (List ClaimedPackage × PackageLedger) :=
  match L.batch? b.operation b.target with
  | some batch => do
      let stored ← batch.replay b.requestDigest
      return (stored, L)
  | none => do
      let r ← fresh
      return (r.1, r.2.store { b with response := r.1 })

/-! ## The loop over devices -/

/-- One package for each device but the excluded one. A user's claim stops
at its device limit; a bot's has checked it before. -/
def claimDevices (now : Nat) (claimedBy : Option UserRef) (operation : OperationRef)
    (target : UserRef) (excluded : Option Device) (limit : Option Nat) :
    List E2EEDevice → List ClaimedPackage → PackageLedger →
      Except ClaimError (List ClaimedPackage × PackageLedger)
  | [], claims, L => .ok (claims, L)
  | device :: rest, claims, L =>
      if excluded = some device.id then
        claimDevices now claimedBy operation target excluded limit rest claims L
      else do
        ensure (∀ n ∈ limit, claims.length < n) .roomDeviceLimit
        let r ← L.claimPackage now claimedBy operation device.id
        claimDevices now claimedBy operation target excluded limit rest
          (claims ++ [device.claimed target r.1]) r.2

/-! ## Users -/

/-- The arguments all parts of a claim share. -/
structure ClaimContext where
  operation : OperationRef
  channel : ChannelRef
  claimant : UserRef
  excludedDevice : Option Device
deriving DecidableEq, Repr

/-- The batch a user's claim stores, but for the response. -/
def ClaimContext.batch (ctx : ClaimContext) (target : UserRef) (maxDevices : Nat) :
    E2EEPackageClaimBatch :=
  { operation := ctx.operation, target, channel := ctx.channel, claimant := ctx.claimant
    excludedDevice := ctx.excludedDevice, maxDevices
    requestDigest := .package ctx.operation ctx.channel ctx.claimant target ctx.excludedDevice
      maxDevices
    response := [] }

/-- The batch a bot's claim stores, but for the response. -/
def ClaimContext.botBatch (ctx : ClaimContext) (target : UserRef) (protocolIds : List Device)
    (maxDevices : Nat) : E2EEPackageClaimBatch :=
  { operation := ctx.operation, target, channel := ctx.channel, claimant := ctx.claimant
    excludedDevice := none, maxDevices
    requestDigest := .botPackage ctx.operation ctx.channel ctx.claimant target protocolIds
      maxDevices
    response := [] }

namespace Roster

variable (roster : Roster)

/-- A user's devices that are not revoked, oldest first. -/
def activeDevices (user : UserRef) : List UserE2EEDevice :=
  (roster.userDevices.filter fun d => d.owner = user && !d.revoked).insertionSort
    fun d e => d.deviceGeneration ≤ e.deviceGeneration

/-- The body of the loop of `claim_local_room_key_packages`. -/
def claimParticipant (ctx : ClaimContext) (now remaining : Nat) (participant : RoomUser)
    (L : PackageLedger) : Except ClaimError (List ClaimedPackage × PackageLedger) := do
  ensure participant.isLocal (.remoteDeviceDiscoveryRequired participant.ref)
  ensure (roster.users.any fun u => u.ref = participant.ref && u.isLocal)
    (.participantDeviceMissing none)
  ensure (0 < remaining) .roomDeviceLimit
  L.answer (ctx.batch participant.ref remaining) (do
    let devices := roster.activeDevices participant.ref
    ensure (devices ≠ []) (.participantDeviceMissing (some participant.ref))
    claimDevices now (some ctx.claimant) ctx.operation participant.ref ctx.excludedDevice
      (some remaining) (devices.map (·.toE2EEDevice)) [] L)

/-- `claim_local_room_key_packages`; `claimed` is what the loop has so far. -/
def claimLocalRoomKeyPackages (ctx : ClaimContext) (now maxDevices : Nat) :
    List RoomUser → List ClaimedPackage → PackageLedger →
      Except ClaimError (List ClaimedPackage × PackageLedger)
  | [], claimed, L => .ok (claimed, L)
  | participant :: rest, claimed, L => do
      let r ← roster.claimParticipant ctx now (maxDevices - claimed.length) participant L
      claimLocalRoomKeyPackages ctx now maxDevices rest (claimed ++ r.1) r.2

/-! ## Bots -/

def admitted (device : Device) (channel : ChannelRef) : Bool :=
  roster.participations.any fun p => p.device = device && p.channel = channel && p.admitted

/-- The ids as the database orders them: by their text. -/
def byToken (d e : Device) : Prop := d.token ≤ e.token

instance : DecidableRel byToken := fun d e => inferInstanceAs (Decidable (d.token ≤ e.token))

/-- `bot_participant_device_ids`. -/
def botParticipantDeviceIds (channel : ChannelRef) (bot : UserRef) :
    Except ClaimError (List Device) := do
  ensure ((bot, channel) ∈ roster.botGrants) (.participantDeviceMissing none)
  let devices := roster.botDevices.filter fun d =>
    d.owner = bot && d.trusted && !d.revoked && roster.admitted d.id channel
  let protocolIds := (devices.map (·.id)).insertionSort byToken
  ensure (protocolIds ≠ []) (.participantDeviceMissing none)
  return protocolIds

/-- The requested devices of a bot that a package may be taken from. -/
def liveBotDevices (bot : UserRef) (now : Nat) (requested : List Device) : List BotE2EEDevice :=
  (roster.botDevices.filter fun d =>
    d.owner = bot && requested.contains d.id && d.trusted && !d.revoked && !d.workerRevoked
      && d.workerExpiresAt.all fun t => now < t).insertionSort fun d e => byToken d.id e.id

/-- `claim_bot_e2ee_key_packages`. -/
def claimBotE2eeKeyPackages (target : UserRef) (protocolIds : List Device)
    (operation : OperationRef) (now : Nat) (L : PackageLedger) :
    Except ClaimError (List ClaimedPackage × PackageLedger) := do
  let requested := protocolIds.dedup
  ensure (requested ≠ [] ∧ requested.length ≤ maxBotE2eeDevices) (.participantDeviceMissing none)
  let devices := roster.liveBotDevices target now requested
  ensure (sameDevices (devices.map (·.id)) requested) (.participantDeviceMissing none)
  claimDevices now none operation target none none (devices.map (·.toE2EEDevice)) [] L

/-- `claim_local_bot_room_key_packages`. -/
def claimLocalBotRoomKeyPackages (ctx : ClaimContext) (target : UserRef)
    (protocolIds : List Device) (maxDevices now : Nat) (L : PackageLedger) :
    Except ClaimError (List ClaimedPackage × PackageLedger) := do
  ensure (protocolIds.length ≤ maxDevices) .roomDeviceLimit
  L.answer (ctx.botBatch target protocolIds maxDevices)
    (roster.claimBotE2eeKeyPackages target protocolIds ctx.operation now L)

/-- The loop over local bots of `claim_room_key_packages`. -/
def claimBots (ctx : ClaimContext) (now : Nat) :
    List RoomUser → List ClaimedPackage → PackageLedger →
      Except ClaimError (List ClaimedPackage × PackageLedger)
  | [], claimed, L => .ok (claimed, L)
  | bot :: rest, claimed, L => do
      let protocolIds ← roster.botParticipantDeviceIds ctx.channel bot.ref
      let r ← roster.claimLocalBotRoomKeyPackages ctx bot.ref protocolIds
        (maxRoomE2eeDevices - claimed.length) now L
      claimBots ctx now rest (claimed ++ r.1) r.2

/-! ## Webhooks -/

/-- The webhook devices of a channel. -/
def webhookRows (channel : ChannelRef) : List WebhookE2EEDevice :=
  (roster.webhookDevices.filter fun d =>
    roster.admitted d.id channel && d.trusted && !d.revoked && !d.webhookRevoked).insertionSort
      fun d e => byToken d.id e.id

end Roster

/-- A webhook's package is found again by the operation it was marked for;
there is no batch. -/
def claimWebhookDevice (now : Nat) (operation : OperationRef) (device : WebhookE2EEDevice)
    (L : PackageLedger) : Except ClaimError (ClaimedPackage × PackageLedger) :=
  match L.packages.find? fun p => p.device = device.id && p.claimedFor operation with
  | some package => .ok (device.claimed device.owner package, L)
  | none => do
      let r ← L.claimPackage now none operation device.id
      return (device.claimed device.owner r.1, r.2)

def claimWebhookDevices (now : Nat) (operation : OperationRef) :
    List WebhookE2EEDevice → List ClaimedPackage → PackageLedger →
      Except ClaimError (List ClaimedPackage × PackageLedger)
  | [], claims, L => .ok (claims, L)
  | device :: rest, claims, L => do
      let r ← claimWebhookDevice now operation device L
      claimWebhookDevices now operation rest (claims ++ [r.1]) r.2

namespace Roster

variable (roster : Roster)

/-- `claim_webhook_e2ee_key_packages`. -/
def claimWebhookE2eeKeyPackages (ctx : ClaimContext) (maxDevices : Int) (now : Nat)
    (L : PackageLedger) : Except ClaimError (List ClaimedPackage × PackageLedger) := do
  let rows := (roster.webhookRows ctx.channel).filter fun d => some d.id ≠ ctx.excludedDevice
  ensure ((rows.length : Int) ≤ maxDevices) .roomDeviceLimit
  claimWebhookDevices now ctx.operation rows [] L

/-! ## A room at its authority -/

/-- `claim_room_key_packages` up to its commit. -/
def claimRoomLocally (ctx : ClaimContext) (participants : List RoomUser) (now : Nat)
    (L : PackageLedger) : Except ClaimError (List ClaimedPackage × PackageLedger) := do
  let users := participants.filter fun p => p.ref.domain = roster.domain && !p.isBot
  let r ← roster.claimLocalRoomKeyPackages ctx now maxRoomE2eeDevices users [] L
  let bots := participants.filter fun p => p.ref.domain = roster.domain && p.isBot
  let r ← roster.claimBots ctx now bots r.1 r.2
  let w ← roster.claimWebhookE2eeKeyPackages ctx (maxRoomE2eeDevices - r.1.length) now r.2
  return (r.1 ++ w.1, w.2)

end Roster

/-- What the home of a remote participant answers. An entry that is not six
well-formed strings is `none`. -/
inductive RemoteReply where
  | unreachable
  | invalidJson
  | refused (status : Nat) (deviceLimit : Bool)
  | noPackages
  | packages (entries : List (Option ClaimedPackage))
deriving DecidableEq, Repr

/-- The checks on one answer. -/
def RemoteReply.accept (reply : RemoteReply) (participant : UserRef) (botDeviceIds : List Device)
    (claimed : Nat) : Except ClaimError (List ClaimedPackage) :=
  match reply with
  | .unreachable => .error .participantHomeUnreachable
  | .invalidJson => .error .peerResponseInvalid
  | .refused status deviceLimit =>
      .error (if deviceLimit then .roomDeviceLimit
        else if status = 409 then .keyPackageUnavailable none
        else .participantHomeRejected)
  | .noPackages => .error .participantHomeRejected
  | .packages entries => do
      ensure (claimed + entries.length ≤ maxRoomE2eeDevices) .participantHomeRejected
      ensure (entries.all fun e => e.any (·.valid participant)) .participantHomeRejected
      let remote := entries.filterMap id
      ensure (botDeviceIds = [] ∨ sameDevices (remote.map (·.deviceId)) botDeviceIds)
        .participantHomeRejected
      ensure (remote ≠ []) (.participantDeviceMissing none)
      return remote

namespace Roster

variable (roster : Roster)

/-- The loop over remote participants, after the commit. -/
def claimRemote (channel : ChannelRef) (reply : UserRef → RemoteReply) :
    List RoomUser → List ClaimedPackage → Except ClaimError (List ClaimedPackage)
  | [], claimed => .ok claimed
  | participant :: rest, claimed =>
      if participant.ref.domain = roster.domain then claimRemote channel reply rest claimed
      else do
        ensure (claimed.length < maxRoomE2eeDevices) .roomDeviceLimit
        let botDeviceIds ← (if participant.isBot then
            roster.botParticipantDeviceIds channel participant.ref
          else Except.ok [])
        let remote ← (reply participant.ref).accept participant.ref botDeviceIds claimed.length
        claimRemote channel reply rest (claimed ++ remote)

/-- `claim_room_key_packages`: what it returns or raises, and the tables it
leaves. What is raised before the commit is rolled back. -/
def claimRoomKeyPackages (ctx : ClaimContext) (participants : List RoomUser) (now : Nat)
    (reply : UserRef → RemoteReply) (L : PackageLedger) :
    Except ClaimError (List ClaimedPackage) × PackageLedger :=
  match roster.claimRoomLocally ctx participants now L with
  | .error e => (.error e, L)
  | .ok (claimed, L') => (roster.claimRemote ctx.channel reply participants claimed, L')

end Roster

/-! ## A claim from another home -/

structure E2EEKeyPackageClaimRequest where
  operation : OperationRef
  channel : ChannelRef
  claimant : UserRef
  target : UserRef
  excludedDevice : Option Device
  botDeviceIds : List Device
  maxDevices : Nat
deriving DecidableEq, Repr

/-- A device is excluded only when its user claims from themself. -/
def E2EEKeyPackageClaimRequest.context (payload : E2EEKeyPackageClaimRequest) : ClaimContext :=
  { operation := payload.operation, channel := payload.channel, claimant := payload.claimant
    excludedDevice := if payload.claimant = payload.target then payload.excludedDevice else none }

/-- `federation_e2ee_key_packages_claim` of `api/federation.py`. Whether
the channel and the claimant are known and may see each other is
`authorized`, whether the claimant is restricted here `restricted`. -/
def Roster.federationClaim (roster : Roster) (origin : String)
    (payload : E2EEKeyPackageClaimRequest) (authorized restricted : Bool) (now : Nat)
    (L : PackageLedger) : Except ClaimError (List ClaimedPackage × PackageLedger) := do
  ensure (payload.channel.domain = origin ∧ payload.operation.domain = origin ∧
    payload.target.domain = roster.domain) .authorityMismatch
  let target ← found (roster.users.find? fun u => u.ref = payload.target && u.isLocal)
    .targetNotFound
  ensure authorized .targetNotFound
  ensure (!restricted) .claimantRestricted
  (if target.isBot then do
    ensure (payload.botDeviceIds ≠ [] ∧ payload.excludedDevice = none) .targetNotFound
    ensure (payload.target ∈ roster.applications) .targetNotFound
    roster.claimLocalBotRoomKeyPackages payload.context payload.target payload.botDeviceIds
      payload.maxDevices now L
  else do
    ensure (payload.botDeviceIds = []) .targetNotFound
    roster.claimLocalRoomKeyPackages payload.context now payload.maxDevices [target] [] L)

/-! ## Runs of a home -/

/-- The transactions that claim packages at a home. -/
inductive ClaimTransaction where
  | room (ctx : ClaimContext) (participants : List RoomUser)
  | federated (origin : String) (payload : E2EEKeyPackageClaimRequest)
      (authorized restricted : Bool)

namespace ClaimTransaction

def operation : ClaimTransaction → OperationRef
  | room ctx _ => ctx.operation
  | federated _ payload _ _ => payload.operation

def perform (roster : Roster) (now : Nat) (L : PackageLedger) :
    ClaimTransaction → Except ClaimError (List ClaimedPackage × PackageLedger)
  | room ctx participants => roster.claimRoomLocally ctx participants now L
  | federated origin payload authorized restricted =>
      roster.federationClaim origin payload authorized restricted now L

end ClaimTransaction

/-- One transaction at its own time; one that raises is rolled back. A
crash before the commit is a transaction that raises, a crash after it
only loses the answer. -/
def claimStep (roster : Roster) (L : PackageLedger) (i : ClaimTransaction × Nat) :
    Option PackageLedger :=
  match i.1.perform roster i.2 L with
  | .ok r => some r.2
  | .error _ => some L

/-- What a failing or answered remote step leaves is what the transaction
left. -/
theorem Roster.claimRoomKeyPackages_ledger (roster : Roster) (ctx : ClaimContext)
    (participants : List RoomUser) (now : Nat) (reply : UserRef → RemoteReply)
    (L : PackageLedger) :
    claimStep roster L (.room ctx participants, now)
      = some (roster.claimRoomKeyPackages ctx participants now reply L).2 := by
  simp only [claimStep, ClaimTransaction.perform, Roster.claimRoomKeyPackages]
  cases roster.claimRoomLocally ctx participants now L with
  | error e => rfl
  | ok r => rfl

end Kaede
