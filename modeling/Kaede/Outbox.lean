import Mathlib.Algebra.GroupWithZero.Nat
import Mathlib.Data.List.Sort
import Kaede.Prefixes
import Kaede.Requests
import Kaede.Runs
import Kaede.TerminalRoom

/-!
# The outbox of one federation destination

`queue_event` appends a row for an event (`backend/app/federation/events.py`),
`drain_destination` sends the due head of the stream and writes what the
peer answered for each event (`backend/app/federation/delivery.py`). Rows
are ordered by id, which the destination's advisory lock hands out in
commit order, and two drains of a destination exclude each other; queueing
and expiry go on while a batch is in flight.

A block at the destination holds events: a suspension all of them, a
silence those with a guild context, deletion controls never. Times are
microseconds.
-/

namespace Kaede

inductive BlockLevel where
  | silence
  | suspend
deriving DecidableEq, Repr

def BlockLevel.name : BlockLevel → String
  | .silence => "silence"
  | .suspend => "suspend"

namespace Outbox

def microsecondsPerHour : Int := 3600000000

def microsecondsPerDay : Int := 86400000000

/-- `POLICY_HELD_OUTBOX_DELAY`. -/
def policyHeldOutboxDelay : Int := 36500 * microsecondsPerDay

/-- `MAX_QUEUE_AGE`. -/
def maxQueueAge : Int := 7 * microsecondsPerDay

def maxBatchEvents : Nat := 100

def maxQueueEvents : Nat := 50000

def maxBatchBytes : Nat := 1024 * 1024

/-- `POLICY_HELD_OUTBOX_PREFIX`. -/
def policyHeldOutboxPrefix : String := "held by local federation block:"

/-- `DURABLE_LATEST_STATE_EVENTS`. -/
def durableLatestStateEvents : List String :=
  ["developer.team.snapshot", "bot.application.runtime.changed", "bot.application.target.changed",
    "bot.dm.installation-capability", "e2ee.device-list.changed", "e2ee.room-policy.changed",
    "guild.announcement.follow.accepted", "guild.announcement.follow.finalized",
    "guild.announcement.follow.rejected", "guild.announcement.follow.revoked",
    "guild.announcement.follow.updated"]

/-- `SECURITY_CRITICAL_GUILD_EVENTS`. -/
def securityCriticalGuildEvents : List String :=
  ["guild.access.revoked", "guild.instance_access.revoked", "guild.leave.request",
    "guild.media.delete.request", "guild.resync.required", "media.delete", "relationship.remove",
    "bot.application.runtime.changed", "bot.dm.installation-capability",
    "e2ee.device-list.changed", "e2ee.room-policy.changed", "guild.announcement.follow.accepted",
    "guild.announcement.follow.finalized", "guild.announcement.follow.rejected",
    "guild.announcement.follow.revoked", "guild.announcement.follow.updated"]

/-! ## Events -/

/-- What an envelope's `context` says about its room. -/
structure Context where
  guildId : Option String := none
  guildDomain : Option String := none
  scopeType : Option String := none
deriving DecidableEq, Repr

/-- A `FederationEvent`. `terminalRoom` and `guildMediaDelete` are the
verdicts of the two exact-shape parsers on its envelope, `roomDeleted`
whether its content declares a room deleted, `envelopeBytes` the length of
its canonical JSON and `content` the rest of it. -/
structure Event where
  originDomain : String
  eventId : String
  eventType : String
  context : Option Context := none
  terminalRoom : Bool := false
  guildMediaDelete : Bool := false
  roomDeleted : Bool := false
  envelopeBytes : Nat
  content : String := ""
deriving DecidableEq, Repr

def federationEventHasGuildContext (eventType : String) (context : Option Context) : Bool :=
  "guild.".toList.isPrefixOf eventType.toList ||
    context.any fun c => (c.guildId.isSome && c.guildDomain.isSome) || c.scopeType = some "guild"

def federationPolicyHoldsEvent (level : BlockLevel) (e : Event) : Bool :=
  match level with
  | .suspend => true
  | .silence => federationEventHasGuildContext e.eventType e.context

/-- Removals that a block never holds back. -/
def Event.deletionControl (e : Event) : Bool :=
  e.eventType = "media.delete" || e.terminalRoom || e.guildMediaDelete

def Event.durable (e : Event) : Bool :=
  e.eventType ∈ durableLatestStateEvents || e.deletionControl

/-- `_durable_outbox_event_exists`, which looks at the columns only. -/
def Event.outlivesCutoff (e : Event) : Bool :=
  e.eventType ∈ durableLatestStateEvents || e.eventType = "media.delete" ||
    e.eventType = "guild.media.delete.request" ||
    (e.eventType ∈ ["guild.instance_access.revoked", "dm.group.state"] && e.roomDeleted)

/-! ## Rows -/

structure Row where
  id : Nat
  eventOriginDomain : String
  eventId : String
  status : OutboxStatus
  attempts : Nat
  nextRetryAt : Int
  lastError : Option String
  createdAt : Int
deriving DecidableEq, Repr

def Row.active (r : Row) : Bool := r.status ∈ [.pending, .retry, .circuit]

/-- A batch that was sent and not answered yet. -/
structure Flight where
  now : Int
  rows : List Row
deriving DecidableEq, Repr

end Outbox

open Outbox in
/-- The rows of one destination, and the events they refer to. -/
structure Outbox where
  localDomain : String
  rows : List Row := []
  events : List Event := []
  nextId : Nat := 1
  flight : Option Flight := none
deriving DecidableEq, Repr

namespace Outbox

def event? (s : Outbox) (r : Row) : Option Event :=
  s.events.find? fun e => e.originDomain = r.eventOriginDomain ∧ e.eventId = r.eventId

/-- The live rows in stream order. -/
def activeRows (s : Outbox) : List Row :=
  (s.rows.filter Row.active).insertionSort fun a b => a.id ≤ b.id

def setRow (s : Outbox) (row : Row) : Outbox :=
  { s with rows := updateBy Row.id row.id (fun _ => row) s.rows }

def setRows (s : Outbox) (rows : List Row) : Outbox := rows.foldl setRow s

/-! ## Queueing -/

/-- A row as it enters the stream, or enters it again. -/
def armed (row : Row) (held : Option BlockLevel) (now : Int) : Row :=
  match held with
  | some level =>
      { row with
        status := .circuit
        nextRetryAt := now + policyHeldOutboxDelay
        lastError := some (policyHeldOutboxPrefix ++ " " ++ level.name) }
  | none => { row with status := .pending, nextRetryAt := now, lastError := none }

/-- The level at which a block holds an event that is queued. -/
def policyHeld (block : Option BlockLevel) (e : Event) : Option BlockLevel :=
  block.filter fun level => !e.deletionControl && federationPolicyHoldsEvent level e

def reArms (e : Event) (requeueExisting : Bool) (status : OutboxStatus) : Bool :=
  (requeueExisting && status ∈ [.delivered, .expired, .failed]) ||
    (e.durable && status ∈ [.expired, .failed])

/-- `queue_event` at this destination; `none` when it raises. -/
def queueEvent (s : Outbox) (block : Option BlockLevel) (e : Event) (requeueExisting : Bool)
    (now : Int) : Option Outbox :=
  if e.originDomain ≠ s.localDomain ∧ e.eventType ≠ "media.delete" then none
  else
    match s.rows.find? fun r => r.eventOriginDomain = e.originDomain ∧ r.eventId = e.eventId with
    | some row =>
        if reArms e requeueExisting row.status then
          some (s.setRow { armed row (policyHeld block e) now with attempts := 0 })
        else some s
    | none =>
        if e.eventType ∉ securityCriticalGuildEvents ∧ ¬ e.terminalRoom ∧
            maxQueueEvents ≤ s.activeRows.length then none
        else
          let stored := s.events.find? fun x =>
            x.originDomain = e.originDomain ∧ x.eventId = e.eventId
          -- an event id is never reused for another envelope
          if stored.any fun x => x ≠ e then none
          else
            some { s with
              events := if stored.isSome then s.events else s.events ++ [e]
              nextId := s.nextId + 1
              rows := s.rows ++ [armed
                { id := s.nextId
                  eventOriginDomain := e.originDomain
                  eventId := e.eventId
                  status := .pending
                  attempts := 0
                  nextRetryAt := now
                  lastError := none
                  createdAt := now } (policyHeld block e) now] }

/-! ## Selecting a batch -/

def dueOrderedPrefix (rows : List Row) (now : Int) : List Row :=
  keepWhile (fun _ r => r.nextRetryAt ≤ now) [] rows

def withoutEventIdCollisions (rows : List Row) : List Row :=
  keepWhile (fun kept r => r.eventId ∉ kept.map Row.eventId) [] rows

/-- Whether a drain under a block takes a row out of the batch. -/
def holds (s : Outbox) (level : BlockLevel) (r : Row) : Bool :=
  match s.event? r with
  | none => true
  | some e => !e.deletionControl && federationPolicyHoldsEvent level e

/-- The due head of the stream, before any policy. -/
def dueRows (s : Outbox) (now : Int) : List Row :=
  withoutEventIdCollisions (dueOrderedPrefix (s.activeRows.take maxBatchEvents) now)

def permittedRows (s : Outbox) (block : Option BlockLevel) (now : Int) : List Row :=
  (s.dueRows now).filter fun r => block.all fun level => !s.holds level r

/-- The length of `canonical_json({"events": [...]})` for the events of the
given rows. -/
def batchBytes (s : Outbox) (rows : List Row) : Nat :=
  13 + (rows.map fun r => ((s.event? r).map Event.envelopeBytes).getD 0).sum + (rows.length - 1)

/-- The rows that are sent. -/
def batch (s : Outbox) (block : Option BlockLevel) (now : Int) : List Row :=
  keepWhile (fun kept r => s.batchBytes (kept ++ [r]) ≤ maxBatchBytes) []
    ((s.permittedRows block now).filter fun r => (s.event? r).isSome)

/-! ## A drain -/

/-- The rows a block takes out are put aside. -/
def holdRows (s : Outbox) (level : BlockLevel) (now : Int) : Outbox :=
  s.setRows (((s.dueRows now).filter (s.holds level)).map fun r => armed r (some level) now)

def startDrain (s : Outbox) (block : Option BlockLevel) (now : Int) : Option Outbox :=
  match s.flight with
  | some _ => none
  | none =>
      let held := block.elim s fun level => s.holdRows level now
      match s.permittedRows block now, s.batch block now with
      | [], _ => some held
      | oversized :: _, [] =>
          some (held.setRow { oversized with
            status := .failed
            lastError := some "KAED_FED_EVENT_TOO_LARGE" })
      | _, rows => some { held with flight := some { now, rows } }

/-- `BACKOFF_SECONDS`. -/
def backoffSeconds : List Int := [5, 30, 120, 600, 1800, 3600]

/-- `retry_delay`; the jitter is in thousandths. -/
def retryDelay (attempts jitter : Nat) : Int :=
  backoffSeconds.getD (min (attempts - 1) (backoffSeconds.length - 1)) 3600 * jitter * 1000

inductive ResultStatus where
  | accepted
  | duplicate
  | rejected
  | other
deriving DecidableEq, Repr

structure PeerResult where
  status : ResultStatus
  code : Option String := none
deriving DecidableEq, Repr

/-- What came back for a batch: an error, with the delay a 429 asked for, or
the results by event id. -/
inductive Response where
  | failure (error : String) (retryAfter : Option Int)
  | results (results : String → Option PeerResult)

def aged (r : Row) (now : Int) : Bool := 24 * microsecondsPerHour ≤ now - r.createdAt

def afterFailure (r : Row) (now : Int) (error : String) (retryAfter : Option Int) (jitter : Nat) :
    Row :=
  { r with
    attempts := r.attempts + 1
    status := if aged r now then .circuit else .retry
    nextRetryAt := now +
      if aged r now then microsecondsPerHour
      else retryAfter.getD (retryDelay (r.attempts + 1) jitter)
    lastError := some error }

def groupStateRejectionIsUpgradeRetryable (e : Event) (r : Row) (code : String) (now : Int) :
    Bool :=
  e.eventType ∈ ["dm.group.state", "dm.group.message.proposed", "dm.group.message.committed",
    "dm.group.call.create"] && code = "KAED_FED_EVENT_REJECTED" && !aged r now

def rejectionCode (result : PeerResult) : String := result.code.getD "peer rejected event"

/-- Whether an answer leaves the row in the stream: a rejection that is
retried, or no verdict. -/
def keepsRetrying (s : Outbox) (r : Row) (now : Int) (result : Option PeerResult) : Bool :=
  match result with
  | none => true
  | some result =>
      match result.status with
      | .accepted | .duplicate => false
      | .rejected => (s.event? r).any fun e =>
          e.durable || groupStateRejectionIsUpgradeRetryable e r (rejectionCode result) now
      | .other => true

def PeerResult.isAccepted (result : PeerResult) : Bool :=
  result.status = .accepted || result.status = .duplicate

/-- The row after the peer's answer. -/
def afterResult (s : Outbox) (r : Row) (now : Int) (result : Option PeerResult) (jitter : Nat) :
    Row :=
  let retried (status : OutboxStatus) (delay : Int) (error : String) : Row :=
    { r with
      attempts := r.attempts + 1
      status := status
      nextRetryAt := now + delay
      lastError := some error }
  match result with
  | none => retried .retry (retryDelay (r.attempts + 1) jitter) "missing result"
  | some result =>
      match result.status with
      | .accepted | .duplicate => { r with status := .delivered, lastError := none }
      | .rejected =>
          if (s.event? r).any Event.durable then
            if aged r now then retried .circuit microsecondsPerHour (rejectionCode result)
            else retried .retry (retryDelay (r.attempts + 1) jitter) (rejectionCode result)
          else if (s.event? r).any fun e =>
              groupStateRejectionIsUpgradeRetryable e r (rejectionCode result) now then
            retried .retry (retryDelay (r.attempts + 1) jitter) (rejectionCode result)
          else { r with status := .failed, lastError := some (rejectionCode result) }
      | .other =>
          retried .retry (retryDelay (r.attempts + 1) jitter) (result.code.getD "missing result")

/-- The second half of `drain_destination`; the jitter is drawn for each row. -/
def finishDrain (s : Outbox) (response : Response) (jitter : Nat → Nat) : Option Outbox :=
  match s.flight with
  | none => none
  | some flight =>
      let answered := flight.rows.map fun r =>
        match response with
        | .failure error retryAfter => afterFailure r flight.now error retryAfter (jitter r.id)
        | .results results => s.afterResult r flight.now (results r.eventId) (jitter r.id)
      some { s.setRows answered with flight := none }

/-! ## Expiry -/

def stale (s : Outbox) (now : Int) (r : Row) : Bool :=
  r.active && r.createdAt < now - maxQueueAge && !(s.event? r).any Event.outlivesCutoff &&
    !(r.lastError.any fun error => policyHeldOutboxPrefix.toList.isPrefixOf error.toList) &&
    !(s.flight.any fun flight => r.id ∈ flight.rows.map Row.id)

/-- `expire_stale_outbox`; the rows of a batch in flight are locked, and
skipped. -/
def expireStaleOutbox (s : Outbox) (now : Int) : Outbox :=
  { s with
    rows := s.rows.map fun r =>
      if s.stale now r then
        { r with status := .expired, lastError := some "KAED_FED_DELIVERY_EXPIRED" }
      else r }

end Outbox

end Kaede
