import Kaede.Paging
import Kaede.Runs
import Mathlib.Data.Prod.Lex
import Mathlib.Data.String.Basic

/-!
# A gateway session

A client reads the events of its topics over a websocket
(`backend/app/gateway.py`). Every frame it gets has a number. A connection
that breaks is taken up by another one with a RESUME that names the last
number the client has: the gateway reads from Redis how far it was in every
topic at that number, replays the streams from there and numbers on.

`Conn` is one connection with the frames of the client before it, and `Input`
is everything that can happen. What a check finds in the database (whether an
event is visible, how many other frames go before it) is part of the input.
A connection may break between any two frames. One that has broken for the
client may still be at work here, so there can be several at once. A RESUME
that is rejected ends the session for the client and is no step; the expired
entries it has deleted by then are.

Two things are kept for the statements alone: with every position, where the
subscription to each topic began and which events the checks of a delivery
found expired or not visible (`step` reads this off the verdict, whatever the
delivery does with it); with every entry in Redis and every frame, the
connection it comes from.
-/

namespace Kaede

namespace Gateway

abbrev Topic := String

/-! ## Streams -/

/-- `GUILD_CREATE` and `GUILD_DELETE` on the topic of the user name the topic
of a guild. -/
inductive Control where
  | create (t : Topic)
  | delete (t : Topic)
deriving DecidableEq, Repr

structure Event where
  /-- The id of the entry in the stream. -/
  id : Nat ×ₗ Nat
  /-- `topic_seq`. -/
  seq : Nat
  control : Option Control := none
deriving DecidableEq

structure Streams where
  /-- `dispatch:seq`. -/
  seqs : Topic → Nat
  /-- `dispatch:stream`. -/
  entries : Topic → List Event

namespace Streams

variable (w : Streams)

/-- `PUBLISH_DISPATCH_SCRIPT`. The ids of a stream grow. -/
def publish (t : Topic) (id : Nat ×ₗ Nat) (control : Option Control) : Option (Streams × Event) :=
  if ∀ e ∈ w.entries t, e.id < id then
    some ({
      seqs := Function.update w.seqs t (w.seqs t + 1)
      entries := Function.update w.entries t
        (w.entries t ++ [{ id, seq := w.seqs t + 1, control }]) },
      { id, seq := w.seqs t + 1, control })
  else none

/-- The oldest entries go when a stream is cut to its length. -/
def trim (t : Topic) (n : Nat) : Streams :=
  { w with entries := Function.update w.entries t ((w.entries t).drop n) }

/-- Entries that have expired are deleted. -/
def purge (topics : List Topic) (expired : List (Topic × Nat)) : Streams :=
  { w with entries := fun t =>
      if t ∈ topics then (w.entries t).filter fun e => (t, e.seq) ∉ expired else w.entries t }

end Streams

/-! ## Positions -/

structure Position where
  cursors : Topic → Nat
  topics : List Topic
  /-- Where the subscription to a topic began. -/
  base : Topic → Nat
  /-- The events that were found expired or not visible. -/
  passed : List (Topic × Nat)

/-- The entries of a topic after the cursor. -/
def afterCursor (w : Streams) (p : Position) (expired : List (Topic × Nat)) (t : Topic) :
    List Event :=
  (w.entries t).filter fun e => (t, e.seq) ∉ expired ∧ p.cursors t < e.seq

/-- The entries of a topic to replay; none if the first is not the next. -/
def pendingOf (w : Streams) (p : Position) (expired : List (Topic × Nat)) (t : Topic) :
    Option (List (Topic × Event)) :=
  match afterCursor w p expired t with
  | [] => some []
  | e :: es => if p.cursors t + 1 < e.seq then none else some ((e :: es).map (t, ·))

/-- The loop of `replay_topic_events`. -/
def collect (w : Streams) (p : Position) (expired : List (Topic × Nat)) :
    List Topic → Option (List (Topic × Event))
  | [] => some []
  | t :: ts =>
      match pendingOf w p expired t with
      | none => none
      | some pending => (collect w p expired ts).map (pending ++ ·)

/-- `replay_topic_events`. -/
def replayTopicEvents (w : Streams) (p : Position) (expired : List (Topic × Nat))
    (topics : List Topic) : Option (List (Topic × Event)) :=
  (collect w p expired topics).map (Paging.sortedBy fun i => i.2.id)

/-! ## Connections -/

structure Frame where
  number : Nat
  /-- The connection that sent it. -/
  sender : Nat
  /-- The event of a topic that it carries, if it carries one. -/
  event : Option (Topic × Nat) := none
deriving DecidableEq

inductive Phase where
  /-- READY is sent, the streams are not read yet. -/
  | ready
  /-- The events since the session was stored are sent. -/
  | starting
  /-- The events since the RESUME's number are sent. -/
  | resuming
  /-- The events of one message are sent. -/
  | working
  | idle
deriving DecidableEq, Repr

structure Conn where
  sequence : Nat
  position : Position
  phase : Phase
  /-- Events of the streams that are still to be sent. -/
  pending : List (Topic × Event) := []
  /-- Messages of the subscription. -/
  inbox : List (Topic × Event) := []
  /-- What the client has when it has everything that was sent. -/
  frames : List Frame
  isOpen : Bool := true

/-- What the checks find when an event is delivered. -/
structure Verdict where
  expired : Bool := false
  visible : Bool := true
  member : Bool := true
  /-- The frames on changed access that go before the event. -/
  extra : Nat := 0
  /-- The user is a member of the guild that a `GUILD_CREATE` names. -/
  joined : Bool := true
deriving DecidableEq, Repr

namespace Conn

variable (k : Conn)

def send (c : Nat) (event : Option (Topic × Nat)) : Conn :=
  { k with
    sequence := k.sequence + 1
    frames := k.frames ++ [{ number := k.sequence + 1, sender := c, event }] }

/-- Frames that carry no event of a topic. -/
def sendOthers (c : Nat) : Nat → Conn → Conn
  | 0, k => k
  | n + 1, k => sendOthers c n (k.send c none)

def withPosition (f : Position → Position) : Conn := { k with position := f k.position }

/-- A message goes to the connections that are subscribed. -/
def hear (t : Topic) (e : Event) (k : Conn) : Conn :=
  if k.isOpen ∧ t ∈ k.position.topics then { k with inbox := k.inbox ++ [(t, e)] } else k

end Conn

namespace Position

variable (p : Position)

def advance (t : Topic) (seq : Nat) : Position :=
  { p with cursors := Function.update p.cursors t seq }

def unsubscribe (t : Topic) : Position := { p with topics := p.topics.erase t }

/-- `apply_user_topic_control`. -/
def control (w : Streams) (joined : Bool) : Option Control → Position
  | none => p
  | some (.delete t) =>
      if t ∈ p.topics then
        { p with topics := p.topics.erase t, cursors := Function.update p.cursors t 0 }
      else p
  | some (.create t) =>
      if joined ∧ t ∉ p.topics then
        { p with
          topics := p.topics ++ [t]
          cursors := Function.update p.cursors t (w.seqs t)
          base := Function.update p.base t (w.seqs t) }
      else p

end Position

/-- `deliver_topic_event`. -/
def deliverTopicEvent (w : Streams) (user : Topic) (c : Nat) (k : Conn) (t : Topic) (e : Event)
    (v : Verdict) : Conn :=
  if e.seq ≤ k.position.cursors t then k
  else if v.expired then k.withPosition fun p => p.advance t e.seq
  else if v.visible then
    ((Conn.sendOthers c v.extra (k.withPosition fun p =>
      if v.member then p.advance t e.seq else (p.advance t e.seq).unsubscribe t)).send c
        (some (t, e.seq))).withPosition fun p =>
          if t = user then p.control w v.joined e.control else p
  else
    Conn.sendOthers c v.extra (k.withPosition fun p =>
      if v.member then p.advance t e.seq else (p.advance t e.seq).unsubscribe t)

/-- `deliver_ephemeral_topic_event`. -/
def deliverEphemeralTopicEvent (w : Streams) (user : Topic) (c : Nat) (k : Conn) (t : Topic)
    (control : Option Control) (v : Verdict) : Conn :=
  if v.expired then k
  else if v.visible then
    ((k.withPosition fun p => if v.member then p else p.unsubscribe t).send c none).withPosition
      fun p => if t = user then p.control w v.joined control else p
  else k.withPosition fun p => if v.member then p else p.unsubscribe t

/-- What a verdict says of an event that a position is not past. -/
def hiddenBy (p : Position) (t : Topic) (e : Event) (v : Verdict) : List (Topic × Nat) :=
  if p.cursors t < e.seq ∧ (v.expired = true ∨ v.visible = false) then [(t, e.seq)] else []

/-! ## The session -/

/-- How far a session was, and which connection said so. -/
structure Progress where
  position : Position
  writer : Nat

structure State where
  streams : Streams
  /-- The topic of the user. -/
  user : Topic
  /-- `sequence`, `cursors` and `topics` of the session. -/
  sequence : Nat
  stored : Progress
  progress : Nat → Option Progress
  conns : Nat → Option Conn

def SESSION_PROGRESS_HISTORY : Nat := 64

namespace State

variable (s : State)

def setConn (c : Nat) (k : Conn) : State := { s with conns := Function.update s.conns c (some k) }

/-- `persist_gateway_progress`. -/
def persistGatewayProgress (c : Nat) (k : Conn) : State :=
  { s with
    sequence := k.sequence
    stored := { position := k.position, writer := c }
    progress := fun q =>
      if q + SESSION_PROGRESS_HISTORY = k.sequence then none
      else if q = k.sequence then some { position := k.position, writer := c }
      else s.progress q }

/-- The position that a RESUME at a number goes on from. -/
def resumePosition (q : Nat) (currentTopics : List Topic) : Option Progress :=
  if s.sequence < q then none
  else
    match if q = s.sequence then some s.stored else s.progress q with
    | none => none
    | some p =>
        if p.position.topics ⊆ currentTopics ∧ currentTopics ⊆ p.position.topics then some p
        else none

def broadcast (t : Topic) (e : Event) : State :=
  { s with conns := fun c => (s.conns c).map (Conn.hear t e) }

end State

inductive Input where
  | publish (t : Topic) (id : Nat ×ₗ Nat) (control : Option Control)
  | trim (t : Topic) (n : Nat)
  | purge (topics : List Topic) (expired : List (Topic × Nat))
  /-- The streams are read after READY and the lists of threads. -/
  | start (c threads : Nat) (expired : List (Topic × Nat))
  /-- A message is taken from the subscription. -/
  | take (c : Nat) (expired : List (Topic × Nat))
  | deliver (c : Nat) (v : Verdict)
  /-- Nothing is pending; private responses go before the end of a replay. -/
  | finish (c responses : Nat)
  | ephemeral (c : Nat) (t : Topic) (control : Option Control) (v : Verdict)
  /-- A request of the client that is answered with some frames. -/
  | request (c answers : Nat)
  /-- The connection breaks after some frames of what it was about to send. -/
  | disconnect (c others : Nat)
  /-- A client with the frames of one connection names a number, and a new
  connection takes over. -/
  | resume (c q : Nat) (currentTopics : List Topic) (expired : List (Topic × Nat)) (new : Nat)
deriving DecidableEq

namespace State

variable (s : State)

/-- The message a connection is at, with the loop of `fanout_loop` around it. -/
def take (c : Nat) (k : Conn) (expired : List (Topic × Nat)) : Option State :=
  match k.inbox with
  | [] => none
  | (t, e) :: inbox =>
      if t ∉ k.position.topics then some (s.setConn c { k with inbox })
      else if e.seq ≤ k.position.cursors t then
        some (s.setConn c { k with inbox, pending := [], phase := .working })
      else if k.position.cursors t + 1 < e.seq then
        match replayTopicEvents s.streams k.position expired [t] with
        | none => some (s.setConn c { k with inbox, isOpen := false })
        | some pending => some
            { s.setConn c { k with inbox, pending, phase := .working } with
              streams := s.streams.purge [t] expired }
      else some (s.setConn c { k with inbox, pending := [(t, e)], phase := .working })

/-- The end of what a connection was at. -/
def finish (c : Nat) (k : Conn) (responses : Nat) : Option State :=
  match k.phase with
  | .ready | .idle => none
  | .working =>
      some ((s.setConn c { k with phase := .idle }).persistGatewayProgress c k)
  | .starting =>
      some ((s.setConn c { Conn.sendOthers c responses k with phase := .idle }
        ).persistGatewayProgress c (Conn.sendOthers c responses k))
  | .resuming =>
      some ((s.setConn c { (Conn.sendOthers c responses k).send c none with phase := .idle }
        ).persistGatewayProgress c ((Conn.sendOthers c responses k).send c none))

/-- What a frame outside of the streams leaves. -/
def settle (c : Nat) (k : Conn) : State := (s.setConn c k).persistGatewayProgress c k

/-- The RESUME branch of `gateway`. -/
def resume (k : Conn) (q : Nat) (currentTopics : List Topic) (expired : List (Topic × Nat))
    (new : Nat) : Option State :=
  match s.resumePosition q currentTopics with
  | none => none
  | some p =>
      match replayTopicEvents s.streams p.position expired p.position.topics with
      | none => none
      | some pending => some
          { s.setConn new {
              sequence := q
              position := p.position
              phase := .resuming
              pending
              frames := k.frames.filter (·.number ≤ q) } with
            streams := s.streams.purge p.position.topics expired }

/-- An open connection. -/
def openConn (c : Nat) : Option Conn := (s.conns c).filter Conn.isOpen

end State

/-- One thing that happens. -/
def step (s : State) : Input → Option State
  | .publish t id control =>
      (s.streams.publish t id control).map fun r =>
        { s with streams := r.1 }.broadcast t r.2
  | .trim t n => some { s with streams := s.streams.trim t n }
  | .purge topics expired => some { s with streams := s.streams.purge topics expired }
  | .start c threads expired =>
      (s.openConn c).bind fun k =>
        if k.phase = .ready then
          match replayTopicEvents s.streams k.position expired k.position.topics with
          | none => some (s.setConn c { Conn.sendOthers c threads k with isOpen := false })
          | some pending => some
              { s.setConn c { Conn.sendOthers c threads k with pending, phase := .starting } with
                streams := s.streams.purge k.position.topics expired }
        else none
  | .take c expired =>
      (s.openConn c).bind fun k => if k.phase = .idle then s.take c k expired else none
  | .deliver c v =>
      (s.openConn c).bind fun k =>
        match k.pending with
        | [] => none
        | (t, e) :: pending =>
            some (s.setConn c
              ((deliverTopicEvent s.streams s.user c { k with pending } t e v).withPosition
                fun p => { p with passed := k.position.passed ++ hiddenBy k.position t e v }))
  | .finish c responses =>
      (s.openConn c).bind fun k => if k.pending = [] then s.finish c k responses else none
  | .ephemeral c t control v =>
      (s.openConn c).bind fun k =>
        if k.phase = .idle ∧ t ∈ k.position.topics then
          some (s.settle c (deliverEphemeralTopicEvent s.streams s.user c k t control v))
        else none
  | .request c answers =>
      (s.openConn c).bind fun k =>
        if k.phase = .idle then some (s.settle c (Conn.sendOthers c answers k)) else none
  | .disconnect c others =>
      (s.openConn c).map fun k =>
        s.setConn c { Conn.sendOthers c others k with isOpen := false }
  | .resume c q currentTopics expired new =>
      (s.conns c).bind fun k =>
        if (∃ f ∈ k.frames, f.number = q) ∧ s.conns new = none then
          s.resume k q currentTopics expired new
        else none

/-- The position at the end of the streams. -/
def Position.current (w : Streams) (topics : List Topic) : Position where
  cursors := fun t => if t ∈ topics then w.seqs t else 0
  topics := topics
  base := w.seqs
  passed := []

end Gateway

end Kaede
