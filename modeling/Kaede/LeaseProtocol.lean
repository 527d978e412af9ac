import Mathlib.Logic.Function.Basic
import Kaede.SnowflakeMint

/-!
# The worker-lease protocol

Any number of processes run `WorkerLease.acquire`, the heartbeat, `close`
and `SnowflakeGenerator.mint` of `backend/app/core/snowflake.py` against
one key-value store. A process is named by its owner token; tokens are
random, so distinct processes have distinct ones.

Every store command a process sends becomes a request that the store
executes atomically at some later step, or never. The process waits for
the answer of its own request; a process that gives up (an exception, a
cancellation) leaves the request behind, where the store may still run it.
Keys vanish when their TTL is over, and `flush` drops all of them.

`now` is real time in microseconds. Monotonic readings of one process are
only ever compared with each other, so all processes read `now` itself.
The wall clock is an input of every step that reads it. `claims`,
`readings` and `issued` record the history and are never read by a step.
-/

namespace Kaede

/-! ## The store -/

inductive LeaseValue where
  | quarantine (owner : Nat)
  | active (owner : Nat)
deriving DecidableEq, Repr

def LeaseValue.owner : LeaseValue → Nat
  | .quarantine p => p
  | .active p => p

structure StoreEntry where
  value : LeaseValue
  expiry : Nat
deriving DecidableEq, Repr

/-- The entries of the keys `snowflake:worker:{id}`. -/
def LeaseStore : Type := Nat → Option StoreEntry

namespace LeaseStore

def get (st : LeaseStore) (now worker : Nat) : Option LeaseValue :=
  match st worker with
  | none => none
  | some e => if now < e.expiry then some e.value else none

def put (st : LeaseStore) (worker : Nat) (value : LeaseValue) (expiry : Nat) : LeaseStore :=
  fun w => if w = worker then some { value := value, expiry := expiry } else st w

/-- `SET key quarantine:owner NX EX ttl*3`. -/
def setNx (st : LeaseStore) (ttl now worker owner : Nat) : Int × LeaseStore :=
  match st.get now worker with
  | some _ => (0, st)
  | none => (1, st.put worker (.quarantine owner) (now + ttl * 3))

/-- `ACTIVATE_SCRIPT`. -/
def activate (st : LeaseStore) (ttl now worker owner : Nat) : Int × LeaseStore :=
  if st.get now worker = some (.quarantine owner) then
    (1, st.put worker (.active owner) (now + ttl))
  else (0, st)

/-- `RENEW_SCRIPT`. -/
def renew (st : LeaseStore) (ttl now worker owner : Nat) : Int × LeaseStore :=
  if st.get now worker = some (.active owner) then
    (1, st.put worker (.active owner) (now + ttl))
  else (0, st)

end LeaseStore

inductive StoreCommand where
  | setNx
  | activate
  | renew
deriving DecidableEq, Repr

/-- A command on its way to the store, and the answer once it was run. -/
structure Request where
  owner : Nat
  worker : Nat
  command : StoreCommand
  sentAt : Nat
  reply : Option Int
deriving DecidableEq, Repr

def Request.run (r : Request) (st : LeaseStore) (ttl now : Nat) : Int × LeaseStore :=
  match r.command with
  | .setNx => st.setNx ttl now r.worker r.owner
  | .activate => st.activate ttl now r.worker r.owner
  | .renew => st.renew ttl now r.worker r.owner

/-! ## The processes -/

/-- The await `_heartbeat` stands at; `absent` before `start_heartbeat`,
`stopped` once the task has returned or was cancelled. -/
inductive Heartbeat where
  | absent
  | stopped
  | sleeping (wakeAt : Nat)
  | ownership
  | renewing (requestedAt request : Nat)
deriving DecidableEq, Repr

def Heartbeat.cancelled : Heartbeat → Heartbeat
  | .absent => .absent
  | _ => .stopped

def heartbeatSeconds : Nat := 20

/-- A process that holds a lease: its generator, the request the current
`mint` call waits for, and its heartbeat task. -/
structure Server where
  gen : Generator
  renewal : Nat
  heartbeat : Heartbeat
deriving DecidableEq, Repr

/-- Where a process stands in `acquire`, by worker id and request. -/
inductive Process where
  | idle
  | setting (worker request : Nat)
  | quarantine (worker wakeAt : Nat)
  | activating (worker requestedAt request : Nat)
  | serving (server : Server)
  | failed
deriving DecidableEq, Repr

structure Claim where
  worker : Nat
  owner : Nat
  time : Nat
deriving DecidableEq, Repr

structure Reading where
  time : Nat
  value : Int
deriving DecidableEq, Repr

structure Issued where
  owner : Nat
  id : Nat
deriving DecidableEq, Repr

structure Cluster where
  now : Nat
  store : LeaseStore
  /-- In sending order; a process refers to its own request by position. -/
  requests : List Request
  procs : Nat → Process
  /-- Every successful `SET NX`, newest first. -/
  claims : List Claim
  readings : List Reading
  issued : List Issued

inductive MintAction where
  | call (clockMs : Int)
  | wake (clockMs : Int)
  | tick (clockMs : Int)
  | locked
  | replied
  | refused
  | cancel
deriving DecidableEq, Repr

inductive HeartbeatAction where
  | start
  | woke
  | locked
  | replied
  | refused
deriving DecidableEq, Repr

inductive ClusterInput where
  | elapse (duration : Nat)
  | flush
  | execute (request : Nat)
  | acquire (owner : Nat)
  | setReplied (owner : Nat)
  | woke (owner : Nat)
  | activateReplied (owner : Nat)
  | abandon (owner : Nat)
  | mint (owner : Nat) (action : MintAction)
  | heartbeat (owner : Nat) (action : HeartbeatAction)
  | close (owner : Nat)
deriving DecidableEq, Repr

namespace Cluster

def init : Cluster :=
  { now := 0, store := fun _ => none, requests := [], procs := fun _ => .idle
    claims := [], readings := [], issued := [] }

def setProc (s : Cluster) (p : Nat) (x : Process) : Cluster :=
  { s with procs := Function.update s.procs p x }

def send (s : Cluster) (p worker : Nat) (command : StoreCommand) : Cluster :=
  { s with requests := s.requests ++
      [{ owner := p, worker := worker, command := command, sentAt := s.now, reply := none }] }

/-- The store's answer to a request, if it has been run. -/
def replyOf (s : Cluster) (request : Nat) : Option Int :=
  s.requests[request]?.bind Request.reply

/-- The loop of `acquire` from worker `worker` on. -/
def tryWorker (s : Cluster) (p worker : Nat) : Cluster :=
  if worker ≤ maxWorkerId then
    (s.send p worker .setNx).setProc p (.setting worker s.requests.length)
  else s.setProc p .failed

/-- The store runs one request. -/
def execute (ttl : Nat) (s : Cluster) (k : Nat) : Option Cluster :=
  match s.requests[k]? with
  | none => none
  | some r =>
      match r.reply with
      | some _ => none
      | none =>
          let (value, store) := r.run s.store ttl s.now
          some { s with
            store := store
            requests := s.requests.set k { r with reply := some value }
            claims :=
              if r.command = .setNx ∧ value = 1 then
                { worker := r.worker, owner := r.owner, time := s.now } :: s.claims
              else s.claims }

end Cluster

/-- The wall-clock reading a step of `mint` takes. The call reads it only
when the lease passes the first check. -/
def Generator.reads (g : Generator) : MintInput → Option Int
  | .call monotonic clockMs => if (g.lease.valid monotonic).1 then some clockMs else none
  | .wake _ clockMs => some clockMs
  | .tick _ clockMs => some clockMs
  | _ => none

namespace Cluster

/-- Run one step of `p`'s generator and record what it read and returned. -/
def mintStep (s : Cluster) (p : Nat) (v : Server) (i : MintInput) : Option Cluster :=
  match v.gen.step i with
  | none => none
  | some (g, o) =>
      let s := s.setProc p (.serving { v with gen := g })
      let s := match v.gen.reads i with
        | some ms => { s with readings := { time := s.now, value := ms } :: s.readings }
        | none => s
      match o with
      | .returned id => some { s with issued := { owner := p, id := id } :: s.issued }
      | _ => some s

def mint (s : Cluster) (p : Nat) (v : Server) : MintAction → Option Cluster
  | .call clockMs => s.mintStep p v (.call s.now clockMs)
  | .wake clockMs => s.mintStep p v (.wake s.now clockMs)
  | .tick clockMs => s.mintStep p v (.tick s.now clockMs)
  | .locked =>
      match v.heartbeat with
      | .renewing _ _ => none
      | _ =>
          match v.gen.step (.locked s.now) with
          | some (g, .suspended) =>
              some ((s.send p g.lease.workerId .renew).setProc p
                (.serving { v with gen := g, renewal := s.requests.length }))
          | some (g, _) => some (s.setProc p (.serving { v with gen := g }))
          | none => none
  | .replied =>
      match s.replyOf v.renewal with
      | some value => s.mintStep p v (.replied s.now (.renewed value))
      | none => none
  | .refused => s.mintStep p v (.replied s.now .failure)
  | .cancel => s.mintStep p v .cancel

/-- Leave `lease` as the heartbeat's `assert_owned` left it. -/
def setLease (s : Cluster) (p : Nat) (v : Server) (l : WorkerLease) (b : Heartbeat) : Cluster :=
  s.setProc p (.serving { v with gen := { v.gen with lease := l }, heartbeat := b })

/-- `_heartbeat` after the renewal came back: go on sleeping, or mark the
lease lost and return. -/
def heartbeatReplied (s : Cluster) (p : Nat) (v : Server) (requestedAt : Nat) (reply : RenewReply) :
    Cluster :=
  match v.gen.lease.confirm requestedAt s.now reply with
  | (.ok (), l) => s.setLease p v l (.sleeping (s.now + heartbeatSeconds * second))
  | (.error _, l) => s.setLease p v l.lose .stopped

def heartbeatStep (ttl : Nat) (s : Cluster) (p : Nat) (v : Server) :
    HeartbeatAction → Option Cluster
  | .start =>
      match v.heartbeat with
      | .absent =>
          let l := { v.gen.lease with
            validUntil := some (v.gen.lease.validUntil.getD (s.now + ttl)) }
          some (s.setLease p v l (.sleeping (s.now + heartbeatSeconds * second)))
      | _ => none
  | .woke =>
      match v.heartbeat with
      | .sleeping wakeAt =>
          if s.now < wakeAt then none
          else
            match v.gen.lease.valid s.now with
            | (false, l) => some (s.setLease p v l.lose .stopped)
            | (true, l) => some (s.setLease p v l .ownership)
      | _ => none
  | .locked =>
      match v.heartbeat, v.gen.pc with
      | .ownership, .renewing _ _ => none
      | .ownership, _ =>
          match v.gen.lease.valid s.now with
          | (false, l) => some (s.setLease p v l.lose .stopped)
          | (true, l) =>
              some ((s.send p l.workerId .renew).setLease p v l
                (.renewing s.now s.requests.length))
      | _, _ => none
  | .replied =>
      match v.heartbeat with
      | .renewing requestedAt request =>
          match s.replyOf request with
          | some value => some (s.heartbeatReplied p v requestedAt (.renewed value))
          | none => none
      | _ => none
  | .refused =>
      match v.heartbeat with
      | .renewing requestedAt _ => some (s.heartbeatReplied p v requestedAt .failure)
      | _ => none

/-- One step of the whole system; `none` when the input is not enabled. -/
def step (ttl : Nat) (s : Cluster) : ClusterInput → Option Cluster
  | .elapse duration => some { s with now := s.now + duration }
  | .flush => some { s with store := fun _ => none }
  | .execute request => s.execute ttl request
  | .acquire p =>
      match s.procs p with
      | .idle => some (s.tryWorker p 0)
      | _ => none
  | .setReplied p =>
      match s.procs p with
      | .setting worker request =>
          match s.replyOf request with
          | none => none
          | some value =>
              if value ≠ 0 then some (s.setProc p (.quarantine worker (s.now + ttl)))
              else some (s.tryWorker p (worker + 1))
      | _ => none
  | .woke p =>
      match s.procs p with
      | .quarantine worker wakeAt =>
          if s.now < wakeAt then none
          else some ((s.send p worker .activate).setProc p
            (.activating worker s.now s.requests.length))
      | _ => none
  | .activateReplied p =>
      match s.procs p with
      | .activating worker requestedAt request =>
          match s.replyOf request with
          | none => none
          | some value =>
              let validUntil := requestedAt + ttl
              if value ≠ 1 then some (s.tryWorker p (worker + 1))
              else if validUntil ≤ s.now then some (s.tryWorker p (worker + 1))
              else
                let lease : WorkerLease :=
                  { workerId := worker, owner := p, validUntil := some validUntil
                    leaseTtl := ttl, lost := false }
                some (s.setProc p (.serving
                  { gen := Generator.init lease, renewal := 0, heartbeat := .absent }))
      | _ => none
  | .abandon p =>
      match s.procs p with
      | .setting _ _ => some (s.setProc p .failed)
      | .quarantine _ _ => some (s.setProc p .failed)
      | .activating _ _ _ => some (s.setProc p .failed)
      | _ => none
  | .mint p action =>
      match s.procs p with
      | .serving v => s.mint p v action
      | _ => none
  | .heartbeat p action =>
      match s.procs p with
      | .serving v => s.heartbeatStep ttl p v action
      | _ => none
  | .close p =>
      match s.procs p with
      | .serving v => some (s.setLease p v v.gen.lease.lose v.heartbeat.cancelled)
      | _ => none

end Cluster

end Kaede
