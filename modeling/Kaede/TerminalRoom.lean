import Mathlib.Data.List.Sort
import Mathlib.Data.List.Dedup
import Kaede.Runs
import Kaede.Requests
import Kaede.Shared

/-!
# Deleting a room everywhere

`backend/app/federation/terminal_rooms.py` at the home of one room. A
deletion is sent to every instance that ever saw the room: the ledger of
recipients is consumed into one row per destination
(`TerminalRoomDeletion`), each naming the signed event that destination
has to accept. A key rollover re-signs the events of the rows that are
not acknowledged, an acknowledgement of any generation settles a row, and
the rows go once all of them are settled and old enough.

Every operation is a transaction under the room lock. Domains are
normalised, and `room_domain` is the home itself.
-/

namespace Kaede

inductive TerminalRoomKind where
  | guild
  | groupDm
deriving DecidableEq, Repr

/-- The two event types a terminal control can have, and any other. -/
inductive TerminalEventType where
  | guildInstanceAccessRevoked
  | dmGroupState
  | other (name : String)
deriving DecidableEq, Repr

/-- A signed event. `content` and `context` are JSON texts without the two
fields `_event_content` adds, which are `generation` and `target`. -/
structure TerminalEnvelope where
  eventId : String
  keyId : String
  eventType : TerminalEventType
  actor : UserRef
  content : String
  context : String
  generation : Nat
  target : Option String
deriving DecidableEq, Repr

structure TerminalRoomDeletion where
  destination : String
  actor : UserRef
  eventType : TerminalEventType
  content : String
  context : String
  eventId : String
  keyId : String
  generation : Nat
  acknowledgedAt : Option Int
  updatedAt : Int
deriving DecidableEq, Repr

inductive OutboxStatus where
  | pending
  | retry
  | circuit
  | delivered
  | failed
  | expired
deriving DecidableEq, Repr

structure FederationOutboxRow where
  destination : String
  eventId : String
  status : OutboxStatus
deriving DecidableEq, Repr

/-- The rows that have to do with one room at its home. -/
structure TerminalRoom where
  kind : TerminalRoomKind
  domain : String
  currentKeyId : Option String
  recipients : List String
  rows : List TerminalRoomDeletion
  events : List TerminalEnvelope
  outbox : List FederationOutboxRow
deriving DecidableEq, Repr

/-- A call of `queue_terminal_room_deletion`. `token` is the event id drawn
for an envelope built for a destination, `refused` the destinations for
which `build_envelope` or `queue_event` raises. -/
structure DeletionRequest where
  actor : UserRef
  eventType : TerminalEventType
  content : String
  context : String
  destinations : List String
  token : String → String
  refused : List String
  now : Int

inductive TerminalRoomError where
  | eventTypeMismatch
  | signingIdentityUnavailable
  | conflictsWithRetainedTruth
  | generationExhausted
  | destinationRefused
  | eventIdConflict
deriving DecidableEq, Repr

/-- The row of a destination that had none. -/
def DeletionRequest.newRow (req : DeletionRequest) (envelope : TerminalEnvelope)
    (generation : Nat) (destination : String) : TerminalRoomDeletion where
  destination := destination
  actor := req.actor
  eventType := req.eventType
  content := req.content
  context := req.context
  eventId := envelope.eventId
  keyId := envelope.keyId
  generation := generation
  acknowledgedAt := none
  updatedAt := req.now

/-- A row that names another event, or the same one again. -/
def TerminalRoomDeletion.requeued (row : TerminalRoomDeletion) (envelope : TerminalEnvelope)
    (generation : Nat) (now : Int) : TerminalRoomDeletion :=
  { row with
    eventId := envelope.eventId
    keyId := envelope.keyId
    generation := generation
    updatedAt := now }

def maxTerminalGeneration : Nat := 9223372036854775807

/-- The event type that belongs to the kind of room. -/
def TerminalRoomKind.eventType : TerminalRoomKind → TerminalEventType
  | .guild => .guildInstanceAccessRevoked
  | .groupDm => .dmGroupState

namespace TerminalRoom

/-- `row` as `session.get` finds it. -/
def row? (s : TerminalRoom) (destination : String) : Option TerminalRoomDeletion :=
  lookupBy TerminalRoomDeletion.destination destination s.rows

def event? (s : TerminalRoom) (eventId : String) : Option TerminalEnvelope :=
  lookupBy TerminalEnvelope.eventId eventId s.events

/-- The rows in the order the queries read them. -/
def orderedRows (s : TerminalRoom) : List TerminalRoomDeletion :=
  s.rows.insertionSort fun a b => a.destination ≤ b.destination

/-- Deleting events takes their outbox rows along. -/
def deleteEvents (s : TerminalRoom) (ids : List String) : TerminalRoom :=
  { s with
    events := s.events.filter fun e => e.eventId ∉ ids
    outbox := s.outbox.filter fun o => o.eventId ∉ ids }

/-! ## Queueing -/

/-- The outbox part of `queue_event`: a row that gave up is tried again. -/
def queueOutbox (s : TerminalRoom) (destination eventId : String) : TerminalRoom :=
  if s.outbox.any fun o => o.destination = destination ∧ o.eventId = eventId then
    { s with outbox := s.outbox.map fun o =>
        if o.destination = destination ∧ o.eventId = eventId ∧
            (o.status = .expired ∨ o.status = .failed) then { o with status := .pending }
        else o }
  else { s with outbox := s.outbox ++ [⟨destination, eventId, .pending⟩] }

/-- `_event_content` and `build_envelope`. -/
def buildEnvelope (s : TerminalRoom) (req : DeletionRequest) (key destination : String)
    (generation : Nat) : TerminalEnvelope where
  eventId := req.token destination
  keyId := key
  eventType := req.eventType
  actor := req.actor
  content := req.content
  context := req.context
  generation := generation
  target := if s.kind = .guild then some destination else none

/-- The rows, the events and the superseded event ids, as the loop over the
destinations leaves them. -/
structure Queueing where
  room : TerminalRoom
  oldEventIds : List String

/-- The event of a row that need not be signed again. -/
def reusable (s : TerminalRoom) (row : TerminalRoomDeletion) (key : String) (rotating : Bool)
    (generation : Nat) : Option TerminalEnvelope :=
  if row.keyId = key ∧ rotating = false then
    (s.event? row.eventId).filter fun e => e.generation = generation
  else none

/-- Sign a new event for a destination. A token that is already in use would
be refused. -/
def signFor (s : TerminalRoom) (req : DeletionRequest) (key : String) (generation : Nat)
    (destination : String) : Except TerminalRoomError (TerminalRoom × TerminalEnvelope) := do
  let envelope := buildEnvelope s req key destination generation
  ensure (s.event? envelope.eventId = none) .eventIdConflict
  .ok ({ s with events := s.events ++ [envelope] }, envelope)

/-- The loop body for a destination without a row. -/
def queueNew (q : Queueing) (req : DeletionRequest) (key : String) (generation : Nat)
    (destination : String) : Except TerminalRoomError Queueing := do
  let (s, envelope) ← signFor q.room req key generation destination
  let s := s.queueOutbox destination envelope.eventId
  .ok { q with room := { s with
    rows := s.rows ++ [req.newRow envelope generation destination] } }

/-- The loop body for a row that is not acknowledged. -/
def queueAgain (q : Queueing) (req : DeletionRequest) (key : String) (rotating : Bool)
    (generation : Nat) (row : TerminalRoomDeletion) : Except TerminalRoomError Queueing := do
  let (s, envelope) ← (match reusable q.room row key rotating generation with
    | some e => .ok (q.room, e)
    | none => signFor q.room req key generation row.destination)
  let s := s.queueOutbox row.destination envelope.eventId
  .ok
    { room := { s with
        rows := updateBy TerminalRoomDeletion.destination row.destination
          (fun _ => row.requeued envelope generation req.now) s.rows }
      oldEventIds :=
        if row.eventId ≠ envelope.eventId then row.eventId :: q.oldEventIds else q.oldEventIds }

def queueDestination (req : DeletionRequest) (key : String) (rotating : Bool) (generation : Nat)
    (q : Queueing) (destination : String) : Except TerminalRoomError Queueing :=
  match q.room.row? destination with
  | some row =>
    if row.acknowledgedAt ≠ none then .ok q
    else do
      ensure (destination ∉ req.refused) .destinationRefused
      queueAgain q req key rotating generation row
  | none => do
      ensure (destination ∉ req.refused) .destinationRefused
      queueNew q req key generation destination

def queueEach (req : DeletionRequest) (key : String) (rotating : Bool) (generation : Nat) :
    Queueing → List String → Except TerminalRoomError Queueing
  | q, [] => .ok q
  | q, destination :: rest => do
      let q' ← queueDestination req key rotating generation q destination
      queueEach req key rotating generation q' rest

/-- The destinations of a deletion: those asked for, those on record, and
those that have a row. -/
def queueDestinations (s : TerminalRoom) (req : DeletionRequest) : List String :=
  (req.destinations.filter (fun d => d ≠ s.domain) ++ s.recipients ++
    s.rows.map TerminalRoomDeletion.destination).dedup.insertionSort (· ≤ ·)

def maxGeneration (s : TerminalRoom) : Nat :=
  s.rows.foldr (fun row g => max row.generation g) 0

def isRotating (s : TerminalRoom) (key : String) : Bool :=
  s.rows.any fun row => row.acknowledgedAt = none ∧ row.keyId ≠ key

/-- `queue_terminal_room_deletion`. -/
def queueTerminalRoomDeletion (s : TerminalRoom) (req : DeletionRequest) :
    Except TerminalRoomError TerminalRoom := do
  ensure (req.eventType = s.kind.eventType) .eventTypeMismatch
  let key ← found s.currentKeyId .signingIdentityUnavailable
  ensure (∀ template ∈ s.orderedRows.head?, template.actor = req.actor ∧
    template.eventType = req.eventType ∧ template.content = req.content ∧
    template.context = req.context) .conflictsWithRetainedTruth
  let rotating := s.isRotating key
  let generation :=
    if rotating ∨ s.maxGeneration = 0 then s.maxGeneration + 1 else s.maxGeneration
  ensure (generation ≤ maxTerminalGeneration) .generationExhausted
  let q ← queueEach req key rotating generation ⟨s, []⟩ (s.queueDestinations req)
  .ok { (q.room.deleteEvents q.oldEventIds) with recipients := [] }

/-! ## Acknowledgements -/

/-- The row is settled. -/
def settle (s : TerminalRoom) (row : TerminalRoomDeletion) (now : Int) : TerminalRoom :=
  { s with
    rows := updateBy TerminalRoomDeletion.destination row.destination
      (fun r => { r with acknowledgedAt := some now, updatedAt := now }) s.rows }

/-- `acknowledge_terminal_room_delivery`, with an envelope of this room of
any generation. -/
def acknowledgeTerminalRoomDelivery (s : TerminalRoom) (destination : String)
    (envelope : TerminalEnvelope) (now : Int) : Except TerminalRoomError TerminalRoom :=
  match s.row? destination with
  | none => .ok s
  | some row => do
      ensure (envelope.actor = row.actor ∧ envelope.eventType = row.eventType)
        .conflictsWithRetainedTruth
      .ok (s.settle row now)

/-- One round of `repair_terminal_room_delivery_acks`. -/
def repairTerminalRoomDeliveryAck (s : TerminalRoom) (destination : String) (now : Int) :
    TerminalRoom :=
  match s.row? destination with
  | none => s
  | some row =>
    if row.acknowledgedAt = none ∧ s.outbox.any (fun o =>
        o.destination = destination ∧ o.eventId = row.eventId ∧ o.status = .delivered) then
      s.settle row now
    else s

/-! ## Rotation and cleanup -/

/-- The room's share of `rotate_terminal_room_deletions`: the retained
request is queued again if some row has an old signature. -/
def rotateTerminalRoomDeletions (s : TerminalRoom) (token : String → String)
    (refused : List String) (now : Int) : Except TerminalRoomError TerminalRoom := do
  let key ← found s.currentKeyId .signingIdentityUnavailable
  (match s.isRotating key, s.orderedRows.head? with
  | true, some template =>
    s.queueTerminalRoomDeletion
      ⟨template.actor, template.eventType, template.content, template.context, [], token, refused,
        now⟩
  | _, _ => .ok s)

/-- The room's share of `cleanup_terminal_room_deletions`. -/
def cleanupTerminalRoomDeletions (s : TerminalRoom) (cutoff : Int) : TerminalRoom :=
  if s.rows ≠ [] ∧ ∀ row ∈ s.rows, row.acknowledgedAt ≠ none ∧ row.updatedAt < cutoff then
    { (s.deleteEvents (s.rows.map TerminalRoomDeletion.eventId)) with rows := [], recipients := [] }
  else s

/-! ## Any interleaving -/

/-- A transaction on the room. Beside the operations on the ledger: a new
signing key, a recipient going on record, and the delivery worker moving
an outbox row. -/
inductive Action where
  | queue (req : DeletionRequest)
  | acknowledge (destination : String) (envelope : TerminalEnvelope) (now : Int)
  | repair (destination : String) (now : Int)
  | rotate (token : String → String) (refused : List String) (now : Int)
  | cleanup (cutoff : Int)
  | rollover (key : Option String)
  | record (destination : String)
  | deliver (destination eventId : String) (status : OutboxStatus)

def perform (s : TerminalRoom) : Action → Except TerminalRoomError TerminalRoom
  | .queue req => s.queueTerminalRoomDeletion req
  | .acknowledge destination envelope now =>
      s.acknowledgeTerminalRoomDelivery destination envelope now
  | .repair destination now => .ok (s.repairTerminalRoomDeliveryAck destination now)
  | .rotate token refused now => s.rotateTerminalRoomDeletions token refused now
  | .cleanup cutoff => .ok (s.cleanupTerminalRoomDeletions cutoff)
  | .rollover key => .ok { s with currentKeyId := key }
  | .record destination =>
      .ok { s with recipients :=
        if destination = s.domain ∨ destination ∈ s.recipients then s.recipients
        else s.recipients ++ [destination] }
  | .deliver destination eventId status =>
      .ok { s with outbox := s.outbox.map fun o =>
        if o.destination = destination ∧ o.eventId = eventId then { o with status := status }
        else o }

/-- The room before it is deleted. -/
def beforeDeletion (kind : TerminalRoomKind) (domain : String) (key : Option String)
    (recipients : List String) : TerminalRoom :=
  ⟨kind, domain, key, recipients, [], [], []⟩

end TerminalRoom

/-! ## The history of a room -/

/-- A room with what its transactions tell: who has acknowledged, and the
key that was current at the last queueing or rotation. -/
structure TerminalRun where
  room : TerminalRoom
  acknowledged : List String
  lastKey : Option String
deriving DecidableEq, Repr

namespace TerminalRun

/-- Who acknowledges in a transaction: the sender of an acknowledgement, if
the room waits for one from it, and a destination that is put down as
having accepted an event of the room. -/
def acknowledging (s : TerminalRoom) : TerminalRoom.Action → List String
  | .acknowledge destination _ _ => if (s.row? destination).isSome then [destination] else []
  | .deliver destination eventId .delivered =>
      if s.outbox.any fun o => o.destination = destination ∧ o.eventId = eventId then [destination]
      else []
  | _ => []

/-- The key that the room's events should carry after a transaction. -/
def keyAfter (s : TerminalRoom) (lastKey : Option String) : TerminalRoom.Action → Option String
  | .queue _ => s.currentKeyId
  | .rotate .. => s.currentKeyId
  | _ => lastKey

/-- A transaction that raises is rolled back. -/
def step (r : TerminalRun) (a : TerminalRoom.Action) : Option TerminalRun :=
  match r.room.perform a with
  | .error _ => some r
  | .ok room => some
      { room := room
        acknowledged := acknowledging r.room a ++ r.acknowledged
        lastKey := keyAfter r.room r.lastKey a }

def start (room : TerminalRoom) : TerminalRun := ⟨room, [], none⟩

end TerminalRun

end Kaede
