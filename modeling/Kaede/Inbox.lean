import Kaede.Runs
import Kaede.Tables
import Mathlib.Data.List.Perm.Basic
import Mathlib.Logic.Function.Basic

/-!
# The federation inbox

`process_event` in `backend/app/api/federation.py` takes one event of a
batch a peer delivers. After the checks that need no record it looks the
event up in the inbox; if it is new, it locks the global ledger and the
peer's, claims the event with a row of the inbox, and does the event's work
in a savepoint of the same transaction. Each way out either keeps the claim
as a verdict or takes it back, and sets two counters by hand.

The transaction that holds the ledgers works on its own view of the store;
the other deliveries see what was committed. A view replaces the store when
its transaction commits and is dropped when it does not. What the checks,
the work and the commit come to is an input of each step.

A batch is its events one after another up to the first that is to be tried
again, so its events are deliveries among others here.
-/

namespace Kaede

namespace Inbox

/-! ## The store -/

/-- The origin and the id of an event. -/
abbrev EventRef := String × String

inductive Status where
  | received
  | processed
  | rejected (code : String)
deriving DecidableEq, Repr

/-- A row of `federation_inbox`, with the delivery that claimed it. -/
structure Row where
  status : Status
  claimedBy : Nat
deriving DecidableEq, Repr

structure Delivery where
  id : Nat
  event : EventRef
  envelope : String
deriving DecidableEq, Repr

/-- The rows of the inbox, `federation_inbox_events` of each peer and of the
global ledger, and the savepoints that were committed. -/
structure Store where
  inbox : Table EventRef Row := ∅
  peers : String → Nat := fun _ => 0
  total : Nat := 0
  work : List (EventRef × Nat) := []

def Store.claim (s : Store) (d : Delivery) : Store :=
  { s with
    inbox := s.inbox.insert d.event { status := .received, claimedBy := d.id }
    peers := Function.update s.peers d.event.1 (s.peers d.event.1 + 1)
    total := s.total + 1 }

/-- The claim is taken back. The counters stop at zero. -/
def Store.release (s : Store) (d : Delivery) : Store :=
  match s.inbox.lookup d.event with
  | none => s
  | some _ =>
      { s with
        inbox := s.inbox.erase d.event
        peers := Function.update s.peers d.event.1 (s.peers d.event.1 - 1)
        total := s.total - 1 }

def Store.settle (s : Store) (d : Delivery) (status : Status) : Store :=
  { s with inbox := s.inbox.modify d.event fun row => { row with status } }

def Store.perform (s : Store) (d : Delivery) : Store :=
  { s with work := s.work ++ [(d.event, d.id)] }

/-! ## Ways out -/

inductive Result where
  | accepted
  | duplicate
  | rejected (code : String)
  | retry (code : String)
deriving DecidableEq, Repr

/-- The answer to a delivery whose event has a row. -/
def Status.answer : Status → Result
  | .processed => .duplicate
  | .rejected code => .rejected (if code = "" then "KAED_FED_EVENT_REJECTED" else code)
  | .received => .retry "KAED_FED_EVENT_RETRY"

/-- What the handlers of `process_event` tell apart in an exception from the
event's work. -/
inductive Failure where
  | transient
  | outboxCapacity
  | tombstoneQuota
  | dmQuota (retryable : Bool)
  | relationshipQuota (code : String)
  /-- `paused`: the event belongs to a replica that could be paused. -/
  | identityQuota (code : String) (paused : Bool)
  | replicaQuota
  | resync
  | other
deriving DecidableEq, Repr

inductive Exit where
  | release (code : String)
  | reject (code : String)
deriving DecidableEq, Repr

def Failure.exit : Failure → Exit
  | .transient => .release "KAED_FED_EVENT_RETRY"
  | .outboxCapacity => .release "KAED_FED_OUTBOX_CAPACITY_EXCEEDED"
  | .tombstoneQuota => .release "KAED_FED_REMOTE_MEDIA_TOMBSTONE_QUOTA_EXCEEDED"
  | .dmQuota true => .release "KAED_FED_DM_STORAGE_QUOTA_EXCEEDED"
  | .dmQuota false => .reject "KAED_FED_DM_STORAGE_QUOTA_EXCEEDED"
  | .relationshipQuota code => .reject code
  | .identityQuota code true => .release code
  | .identityQuota code false => .reject code
  | .replicaQuota => .release "KAED_FED_REPLICA_QUOTA_EXCEEDED"
  | .resync => .release "KAED_FED_RESYNC_RETRY"
  | .other => .reject "KAED_FED_EVENT_REJECTED"

inductive Work where
  /-- The savepoint is released. `pending`: a media deletion has yet to be
  acknowledged further down. -/
  | done (pending : Bool)
  /-- `AutoModMessageBlocked`: the savepoint is kept, with a rejection queued. -/
  | blocked
  | failed (failure : Failure)
deriving DecidableEq, Repr

def cascadePending : String := "KAED_FED_MEDIA_DELETE_CASCADE_PENDING"

/-- `post_commit_inbox_result`. -/
def postCommitInboxResult (pending : Bool) : Result :=
  if pending then .retry cascadePending else .accepted

/-- What the transaction that claimed the event leaves: the store and whether
the savepoint is part of it, and the answer if the commit succeeds and if it
does not. An exception in a handler answers nothing; neither does a blocked
message, whose answer has a status outside of `InboxResult`. -/
structure Outcome where
  view : Store
  kept : Bool := false
  committed : Option Result
  failed : Option Result := none

/-- `process_event` from the savepoint on. `conflict`: the event id is known
with another envelope. -/
def conclude (view : Store) (d : Delivery) (conflict : Bool) (work : Work) : Outcome :=
  if conflict then
    { view := view.settle d (.rejected "KAED_FED_EVENT_ID_CONFLICT")
      committed := some (.rejected "KAED_FED_EVENT_ID_CONFLICT") }
  else match work with
    | .done pending =>
        { view := (view.perform d).settle d .processed
          kept := true
          committed := some (postCommitInboxResult pending)
          failed := some (.retry "KAED_FED_EVENT_RETRY") }
    | .blocked =>
        { view := (view.perform d).settle d .processed, kept := true, committed := none }
    | .failed failure =>
        match failure.exit with
        | .release code => { view := view.release d, committed := some (.retry code) }
        | .reject code =>
            { view := view.settle d (.rejected code), committed := some (.rejected code) }

/-! ## Deliveries -/

/-- Where a delivery was answered. -/
inductive Stage where
  | screen
  | lookup
  | admission
  | claim
  | work
deriving DecidableEq, Repr

structure Answer where
  delivery : Delivery
  stage : Stage
  result : Result
deriving DecidableEq, Repr

/-- A delivery under way; `looked` says that it has found no row. -/
structure Pending where
  delivery : Delivery
  looked : Bool := false
deriving DecidableEq, Repr

structure Server where
  store : Store := {}
  /-- `federation_events`. -/
  events : Table EventRef String := ∅
  pending : List Pending := []
  /-- The delivery that holds the ledgers, with its view. -/
  holder : Option (Delivery × Store) := none
  next : Nat := 0
  log : List Answer := []

inductive Input where
  | deliver (event : EventRef) (envelope : String)
  /-- The checks before the inbox, which may answer, and the look at it. -/
  | look (i : Nat) (stop : Option Result)
  /-- The ledgers are locked. `stop`: they are missing or the quota is spent. -/
  | acquire (i : Nat) (stop : Option String)
  | conclude (work : Work) (commits : Bool)
  | abort
  /-- An event is stored by other code. -/
  | retain (event : EventRef) (envelope : String)

def Server.answer (s : Server) (d : Delivery) (stage : Stage) (result : Result) : Server :=
  { s with log := s.log ++ [{ delivery := d, stage, result }] }

def Server.remove (s : Server) (i : Nat) : Server :=
  { s with pending := s.pending.eraseIdx i }

/-- `session.get(FederationInbox, …)` before the ledgers are locked. -/
def Server.look (s : Server) (i : Nat) (d : Delivery) (stop : Option Result) : Server :=
  match stop with
  | some result => (s.remove i).answer d .screen result
  | none =>
      match s.store.inbox.lookup d.event with
      | some row => (s.remove i).answer d .lookup row.status.answer
      | none => { s with pending := s.pending.set i { delivery := d, looked := true } }

/-- The insert that claims the event, under the locks. -/
def Server.acquire (s : Server) (i : Nat) (d : Delivery) (stop : Option String) : Server :=
  match stop with
  | some code => (s.remove i).answer d .admission (.retry code)
  | none =>
      match s.store.inbox.lookup d.event with
      | some row => (s.remove i).answer d .claim row.status.answer
      | none => { s.remove i with holder := some (d, s.store.claim d) }

def Server.report (s : Server) (d : Delivery) (result : Option Result) : Server :=
  match result with
  | none => s
  | some result => s.answer d .work result

def Server.outcome (s : Server) (d : Delivery) (view : Store) (work : Work) : Outcome :=
  Inbox.conclude view d ((s.events.lookup d.event).any (· ≠ d.envelope)) work

def Server.conclude (s : Server) (d : Delivery) (view : Store) (work : Work) (commits : Bool) :
    Server :=
  if commits then
    Server.report { s with
      holder := none
      store := (s.outcome d view work).view
      events := if (s.outcome d view work).kept then s.events.insert d.event d.envelope
        else s.events } d (s.outcome d view work).committed
  else Server.report { s with holder := none } d (s.outcome d view work).failed

def step (s : Server) : Input → Option Server
  | .deliver event envelope =>
      some { s with
        pending := s.pending ++ [{ delivery := { id := s.next, event, envelope } }]
        next := s.next + 1 }
  | .look i stop => (s.pending[i]?).bind fun p =>
      if p.looked then none else some (s.look i p.delivery stop)
  | .acquire i stop =>
      if s.holder.isSome then none
      else (s.pending[i]?).bind fun p =>
        if p.looked then some (s.acquire i p.delivery stop) else none
  | .conclude work commits => s.holder.map fun h => s.conclude h.1 h.2 work commits
  | .abort => some { s with holder := none }
  | .retain event envelope =>
      some { s with events := match s.events.lookup event with
        | none => s.events.insert event envelope
        | some _ => s.events }

/-! ## The counters and the claim -/

variable {s s' : Server} {t : Store} {d : Delivery} {k : EventRef} {row : Row}

/-- The rows of one origin. -/
def Store.rowsOf (t : Store) (origin : String) : Nat :=
  t.inbox.keys.countP fun k => k.1 = origin

structure Store.Ok (t : Store) : Prop where
  peers : ∀ origin, t.peers origin = t.rowsOf origin
  total : t.total = t.inbox.keys.length
  verdict : ∀ k row, t.inbox.lookup k = some row → row.status ≠ .received
  work : (t.work.map Prod.fst).Nodup
  performed : ∀ w ∈ t.work, t.inbox.lookup w.1 = some { status := .processed, claimedBy := w.2 }

theorem Store.claim_release (hnew : t.inbox.lookup d.event = none) :
    (t.claim d).release d = t := by
  have hnot : d.event ∉ t.inbox := AList.lookup_eq_none.mp hnew
  have hinbox : (t.inbox.insert d.event ⟨.received, d.id⟩).erase d.event = t.inbox := by
    refine AList.ext ?_
    show List.kerase d.event (t.inbox.insert d.event _).entries = _
    rw [AList.entries_insert_of_notMem hnot]
    exact List.kerase_cons_eq rfl
  have hlookup : (t.claim d).inbox.lookup d.event = some ⟨.received, d.id⟩ :=
    AList.lookup_insert t.inbox
  rw [Store.release, hlookup]
  simp only [Store.claim, hinbox, Function.update_self, Function.update_idem,
    Nat.add_sub_cancel, Function.update_eq_self]

/-- The store with the claim made a verdict. -/
def Store.record (t : Store) (d : Delivery) (status : Status) : Store :=
  { t with
    inbox := t.inbox.insert d.event { status, claimedBy := d.id }
    peers := Function.update t.peers d.event.1 (t.peers d.event.1 + 1)
    total := t.total + 1 }

theorem Store.claim_settle (t : Store) (d : Delivery) (status : Status) :
    (t.claim d).settle d status = t.record d status := by
  have hinbox : Table.modify d.event (fun row : Row => { row with status })
      (t.inbox.insert d.event ⟨.received, d.id⟩) = t.inbox.insert d.event ⟨status, d.id⟩ := by
    rw [Table.modify, AList.lookup_insert]
    exact AList.insert_insert _
  rw [Store.settle, Store.record]
  simp only [Store.claim, hinbox]

theorem Store.rowsOf_record (hnew : t.inbox.lookup d.event = none) (status : Status)
    (origin : String) : (t.record d status).rowsOf origin =
      t.rowsOf origin + if d.event.1 = origin then 1 else 0 := by
  rw [Store.rowsOf, Store.record, Table.keys_insert_of_lookup_eq_none hnew, List.countP_cons,
    Store.rowsOf]
  simp only [decide_eq_true_eq]

theorem Store.Ok.record (h : t.Ok) (hnew : t.inbox.lookup d.event = none) {status : Status}
    (hstatus : status ≠ .received) : (t.record d status).Ok where
  peers origin := by
    rw [Store.rowsOf_record hnew]
    show Function.update t.peers d.event.1 (t.peers d.event.1 + 1) origin = _
    by_cases horigin : origin = d.event.1
    · rw [horigin, Function.update_self, h.peers, if_pos rfl]
    · rw [Function.update_of_ne horigin, h.peers, if_neg (Ne.symm horigin), Nat.add_zero]
  total := by
    rw [Store.record, Table.keys_insert_of_lookup_eq_none hnew, List.length_cons, h.total]
  verdict k row hrow := by
    obtain ⟨-, rfl⟩ | ⟨-, hrow⟩ := Table.lookup_insert_eq_some.mp hrow
    · exact hstatus
    · exact h.verdict k row hrow
  work := h.work
  performed w hw := by
    have hlookup := h.performed w hw
    have hne : w.1 ≠ d.event := fun heq => by
      rw [heq, hnew] at hlookup
      cases hlookup
    rw [Store.record, Table.lookup_insert_ite, if_neg hne]
    exact hlookup

theorem Store.Ok.perform (h : t.Ok) (hnew : t.inbox.lookup d.event = none) :
    ((t.record d .processed).perform d).Ok := by
  have hok : (t.record d .processed).Ok := h.record hnew Status.noConfusion
  refine { hok with work := ?_, performed := fun w hw => ?_ }
  · rw [Store.perform, List.map_append]
    refine List.nodup_append.mpr ⟨h.work, List.nodup_singleton _, ?_⟩
    intro k hk k' hk' heq
    obtain ⟨w, hw, rfl⟩ := List.mem_map.mp hk
    obtain rfl := List.mem_singleton.mp hk'
    have hlookup := h.performed w hw
    rw [heq, hnew] at hlookup
    cases hlookup
  · rcases List.mem_append.mp hw with hw | hw
    · exact hok.performed w hw
    · obtain rfl := List.mem_singleton.mp hw
      exact AList.lookup_insert t.inbox

/-- The claim is gone and nothing with it, or it has become a verdict. -/
theorem conclude_cases (hnew : t.inbox.lookup d.event = none) (conflict : Bool) (work : Work) :
    ((conclude (t.claim d) d conflict work).view = t ∧
        ∃ code, (conclude (t.claim d) d conflict work).committed = some (.retry code)) ∨
      ((∃ status, status ≠ .received ∧
          ((conclude (t.claim d) d conflict work).view = t.record d status ∨
            status = .processed ∧
              (conclude (t.claim d) d conflict work).view = (t.record d status).perform d)) ∧
        ∀ code, (conclude (t.claim d) d conflict work).committed = some (.retry code) →
          code = cascadePending) := by
  have hperform : ((t.claim d).perform d).settle d .processed =
      (t.record d .processed).perform d := by
    rw [← Store.claim_settle]
    rfl
  unfold conclude
  split
  · refine .inr ⟨⟨_, Status.noConfusion, .inl (Store.claim_settle t d _)⟩, fun code hcode => ?_⟩
    cases hcode
  · split
    · rename_i pending
      refine .inr ⟨⟨_, Status.noConfusion, .inr ⟨rfl, hperform⟩⟩, fun code hcode => ?_⟩
      cases pending <;> cases hcode
      rfl
    · refine .inr ⟨⟨_, Status.noConfusion, .inr ⟨rfl, hperform⟩⟩, fun code hcode => ?_⟩
      cases hcode
    · split
      · exact .inl ⟨Store.claim_release hnew, _, rfl⟩
      · refine .inr ⟨⟨_, Status.noConfusion, .inl (Store.claim_settle t d _)⟩,
          fun code hcode => ?_⟩
        cases hcode

/-! ## Deliveries under way -/

def Server.live (s : Server) : List Nat :=
  (s.holder.map fun h => h.1.id).toList ++ s.pending.map (·.delivery.id)

/-- Told to try again, the delivery has left neither row nor work. The one
exception is a media deletion that is kept while it is passed on. -/
def Answer.Clean (t : Store) (a : Answer) : Prop :=
  ∀ code, a.result = .retry code → code ≠ cascadePending →
    (∀ k row, t.inbox.lookup k = some row → row.claimedBy ≠ a.delivery.id) ∧
      ∀ w ∈ t.work, w.2 ≠ a.delivery.id

structure Server.Ok (s : Server) : Prop where
  store : s.store.Ok
  holder : ∀ h, s.holder = some h →
    h.2 = s.store.claim h.1 ∧ s.store.inbox.lookup h.1.event = none
  nodup : s.live.Nodup
  live : ∀ n ∈ s.live, n < s.next
  owners : ∀ k row, s.store.inbox.lookup k = some row →
    row.claimedBy ∉ s.live ∧ row.claimedBy < s.next
  answered : ∀ a ∈ s.log, a.delivery.id ∉ s.live ∧ a.delivery.id < s.next
  clean : ∀ a ∈ s.log, a.Clean s.store

/-- A delivery without a row has no work either. -/
theorem Store.Ok.clean (h : t.Ok) {a : Answer}
    (hrows : ∀ k row, t.inbox.lookup k = some row → row.claimedBy ≠ a.delivery.id) :
    a.Clean t :=
  fun _ _ _ => ⟨hrows, fun w hw => hrows w.1 _ (h.performed w hw)⟩

theorem Server.Ok.answer (h : s.Ok) (hd : d.id ∉ s.live) (hnext : d.id < s.next)
    {stage : Stage} {result : Result}
    (hclean : Answer.Clean s.store { delivery := d, stage, result }) :
    (s.answer d stage result).Ok := by
  refine { h with answered := fun a ha => ?_, clean := fun a ha => ?_ }
  · rcases List.mem_append.mp ha with ha | ha
    · exact h.answered a ha
    · obtain rfl := List.mem_singleton.mp ha
      exact ⟨hd, hnext⟩
  · rcases List.mem_append.mp ha with ha | ha
    · exact h.clean a ha
    · obtain rfl := List.mem_singleton.mp ha
      exact hclean

/-- Deliveries move on or are dropped. -/
theorem Server.Ok.move (h : s.Ok) {pending : List Pending} {holder : Option (Delivery × Store)}
    (hnodup : ({ s with pending, holder } : Server).live.Nodup)
    (hsub : ∀ n ∈ ({ s with pending, holder } : Server).live, n ∈ s.live)
    (hholder : ∀ h, holder = some h →
      h.2 = s.store.claim h.1 ∧ s.store.inbox.lookup h.1.event = none) :
    ({ s with pending, holder } : Server).Ok where
  store := h.store
  holder := hholder
  nodup := hnodup
  live n hn := h.live n (hsub n hn)
  owners k row hrow := ⟨fun hn => (h.owners k row hrow).1 (hsub _ hn), (h.owners k row hrow).2⟩
  answered a ha := ⟨fun hn => (h.answered a ha).1 (hsub _ hn), (h.answered a ha).2⟩
  clean := h.clean

/-- A delivery that is still under way. -/
structure Server.Under (s : Server) (d : Delivery) : Prop where
  live : d.id ∉ s.live
  next : d.id < s.next
  rows : ∀ k row, s.store.inbox.lookup k = some row → row.claimedBy ≠ d.id
  log : ∀ a ∈ s.log, a.delivery.id ≠ d.id

theorem Server.Ok.under (h : s.Ok) (hd : d.id ∈ s.live) {pending : List Pending}
    {holder : Option (Delivery × Store)}
    (hgone : d.id ∉ ({ s with pending, holder } : Server).live) :
    ({ s with pending, holder } : Server).Under d where
  live := hgone
  next := h.live _ hd
  rows k row hrow heq := (h.owners k row hrow).1 (heq ▸ hd)
  log a ha heq := (h.answered a ha).1 (heq ▸ hd)

theorem live_perm_remove {i : Nat} {p : Pending} (hp : s.pending[i]? = some p) :
    (p.delivery.id :: (s.remove i).live).Perm s.live := by
  obtain ⟨hi, rfl⟩ := List.getElem?_eq_some_iff.mp hp
  have hperm := (List.getElem_cons_eraseIdx_perm hi).map (·.delivery.id)
  rw [List.map_cons] at hperm
  exact List.perm_middle.symm.trans (hperm.append_left _)

theorem Server.Ok.remove (h : s.Ok) {i : Nat} {p : Pending} (hp : s.pending[i]? = some p) :
    (s.remove i).Ok ∧ (s.remove i).Under p.delivery := by
  have hperm := live_perm_remove hp
  obtain ⟨hgone, hnodup⟩ := List.nodup_cons.mp (hperm.nodup_iff.mpr h.nodup)
  refine ⟨h.move hnodup (fun n hn => ?_) h.holder, ?_⟩
  · exact hperm.subset (List.mem_cons_of_mem _ hn)
  · exact h.under (hperm.subset List.mem_cons_self) hgone

/-- An answer that leaves the store as it is. -/
theorem Server.Ok.reply (h : s.Ok) (hd : s.Under d) (stage : Stage) (result : Result) :
    (s.answer d stage result).Ok :=
  h.answer hd.live hd.next (h.store.clean hd.rows)

theorem Server.Ok.look (h : s.Ok) {i : Nat} {p : Pending} (hp : s.pending[i]? = some p)
    (stop : Option Result) : (s.look i p.delivery stop).Ok := by
  obtain ⟨hremove, hunder⟩ := h.remove hp
  unfold Server.look
  split
  · exact hremove.reply hunder _ _
  · split
    · exact hremove.reply hunder _ _
    · have hlive : ({ s with pending := s.pending.set i ⟨p.delivery, true⟩ } : Server).live =
          s.live := by
        have hset : (s.pending.set i ⟨p.delivery, true⟩).map (·.delivery.id) =
            s.pending.map (·.delivery.id) := by
          refine List.ext_getElem? fun j => ?_
          rw [List.getElem?_map, List.getElem?_map, List.getElem?_set]
          split
          · rename_i hij
            subst hij
            rw [hp]
            split
            · rfl
            · rename_i hlength
              exact absurd (List.getElem?_eq_some_iff.mp hp).1 hlength
          · rfl
        show _ ++ _ = _ ++ _
        rw [hset]
      refine h.move ?_ (fun n hn => ?_) h.holder
      · rw [hlive]
        exact h.nodup
      · rw [hlive] at hn
        exact hn

theorem Server.Ok.acquire (h : s.Ok) {i : Nat} {p : Pending} (hp : s.pending[i]? = some p)
    (hfree : s.holder = none) (stop : Option String) : (s.acquire i p.delivery stop).Ok := by
  obtain ⟨hremove, hunder⟩ := h.remove hp
  unfold Server.acquire
  split
  · exact hremove.reply hunder _ _
  · split
    · exact hremove.reply hunder _ _
    · rename_i hnew
      have hperm := live_perm_remove hp
      have hlive : ({ s with
          pending := (s.remove i).pending
          holder := some (p.delivery, s.store.claim p.delivery) } : Server).live =
          p.delivery.id :: (s.remove i).live := by
        simp only [Server.live, Server.remove, hfree, Option.map_some, Option.map_none,
          Option.toList_some, Option.toList_none, List.nil_append, List.singleton_append]
      refine h.move ?_ (fun n hn => ?_) fun view hview => ?_
      · rw [hlive]
        exact hperm.nodup_iff.mpr h.nodup
      · rw [hlive] at hn
        exact hperm.subset hn
      · rw [← Option.some.inj hview]
        exact ⟨rfl, hnew⟩

/-- A transaction commits rows of its own delivery. -/
theorem Server.Ok.commit (h : s.Ok) (hd : s.Under d) (hfree : s.holder = none) (ht : t.Ok)
    (hrows : ∀ k row, t.inbox.lookup k = some row →
      row.claimedBy = d.id ∨ s.store.inbox.lookup k = some row)
    (events : Table EventRef String) : ({ s with store := t, events } : Server).Ok where
  store := ht
  holder x hx := by
    rw [hfree] at hx
    cases hx
  nodup := h.nodup
  live := h.live
  owners k row hrow := by
    rcases hrows k row hrow with hown | hold
    · rw [hown]
      exact ⟨hd.live, hd.next⟩
    · exact h.owners k row hold
  answered := h.answered
  clean a ha code hresult hcode := by
    have hrows' : ∀ k row, t.inbox.lookup k = some row → row.claimedBy ≠ a.delivery.id := by
      intro k row hrow
      rcases hrows k row hrow with hown | hold
      · rw [hown]
        exact (hd.log a ha).symm
      · exact (h.clean a ha code hresult hcode).1 k row hold
    exact ht.clean hrows' code hresult hcode

theorem lookup_record {status : Status} (hrow : (t.record d status).inbox.lookup k = some row) :
    row.claimedBy = d.id ∨ t.inbox.lookup k = some row := by
  obtain ⟨-, rfl⟩ | ⟨-, hrow⟩ := Table.lookup_insert_eq_some.mp hrow
  · exact .inl rfl
  · exact .inr hrow

/-- What a commit puts in the store's place. -/
theorem Store.Ok.conclude (h : t.Ok) (hnew : t.inbox.lookup d.event = none) (conflict : Bool)
    (work : Work) :
    (conclude (t.claim d) d conflict work).view.Ok ∧
      ∀ k row, (Inbox.conclude (t.claim d) d conflict work).view.inbox.lookup k = some row →
        row.claimedBy = d.id ∨ t.inbox.lookup k = some row := by
  obtain ⟨hview, -⟩ | ⟨⟨status, hstatus, hview | ⟨rfl, hview⟩⟩, -⟩ :=
    conclude_cases hnew conflict work
  · rw [hview]
    exact ⟨h, fun k row hrow => .inr hrow⟩
  · rw [hview]
    exact ⟨h.record hnew hstatus, fun k row => lookup_record⟩
  · rw [hview]
    exact ⟨h.perform hnew, fun k row => lookup_record⟩

theorem Server.Ok.conclude (h : s.Ok) {view : Store} (hholder : s.holder = some (d, view))
    (work : Work) (commits : Bool) : (s.conclude d view work commits).Ok := by
  obtain ⟨hview, hnew⟩ := h.holder _ hholder
  obtain rfl : view = s.store.claim d := hview
  have hlive : s.live = d.id :: s.pending.map (·.delivery.id) := by
    rw [Server.live, hholder]
    rfl
  obtain ⟨hgone, hnodup⟩ := List.nodup_cons.mp (hlive ▸ h.nodup)
  have hfree : ({ s with holder := none } : Server).Ok := by
    refine h.move hnodup (fun n hn => ?_) fun x hx => by cases hx
    rw [hlive]
    exact List.mem_cons_of_mem _ hn
  have hunder : ({ s with holder := none } : Server).Under d :=
    h.under (hlive ▸ List.mem_cons_self) hgone
  have hcases := conclude_cases hnew ((s.events.lookup d.event).any (· ≠ d.envelope)) work
  obtain ⟨hstore, hrows⟩ :=
    h.store.conclude hnew ((s.events.lookup d.event).any (· ≠ d.envelope)) work
  rw [← Server.outcome] at hcases hstore hrows
  unfold Server.conclude
  generalize s.outcome d (s.store.claim d) work = outcome at hcases hstore hrows ⊢
  split
  · have hcommit := hfree.commit hunder rfl hstore hrows
      (if outcome.kept then s.events.insert d.event d.envelope else s.events)
    unfold Server.report
    split
    · exact hcommit
    · rename_i result hresult
      refine hcommit.answer hunder.live hunder.next fun code hcode hne => ?_
      obtain rfl : result = .retry code := hcode
      obtain ⟨hsame, -⟩ | ⟨-, hcascade⟩ := hcases
      · refine hstore.clean (fun k row hrow => ?_) code rfl hne
        rw [hsame] at hrow
        exact hunder.rows k row hrow
      · exact absurd (hcascade code hresult) hne
  · unfold Server.report
    split
    · exact hfree
    · exact hfree.reply hunder _ _

theorem Server.Ok.deliver (h : s.Ok) (event : EventRef) (envelope : String) :
    ({ s with
      pending := s.pending ++ [{ delivery := { id := s.next, event, envelope } }]
      next := s.next + 1 } : Server).Ok := by
  have hnew : s.next ∉ s.live := fun hn => Nat.lt_irrefl _ (h.live _ hn)
  have hlive : ({ s with
      pending := s.pending ++ [{ delivery := { id := s.next, event, envelope } }]
      next := s.next + 1 } : Server).live = s.live ++ [s.next] := by
    simp only [Server.live, List.map_append, List.map_cons, List.map_nil, List.append_assoc]
  have hout : ∀ n, n ∉ s.live ∧ n < s.next → n ∉ s.live ++ [s.next] ∧ n < s.next + 1 := by
    rintro n ⟨hn, hlt⟩
    refine ⟨fun hmem => ?_, Nat.lt_succ_of_lt hlt⟩
    rcases List.mem_append.mp hmem with hmem | hmem
    · exact hn hmem
    · exact Nat.ne_of_lt hlt (List.mem_singleton.mp hmem)
  refine { h with nodup := ?_, live := fun n hn => ?_, owners := fun k row hrow => ?_
                  answered := fun a ha => ?_ }
  · rw [hlive]
    refine List.nodup_append.mpr ⟨h.nodup, List.nodup_singleton _, ?_⟩
    intro n hn m hm heq
    obtain rfl := List.mem_singleton.mp hm
    exact hnew (heq ▸ hn)
  · rw [hlive] at hn
    rcases List.mem_append.mp hn with hn | hn
    · exact Nat.lt_succ_of_lt (h.live n hn)
    · rw [List.mem_singleton.mp hn]
      exact Nat.lt_succ_self _
  · rw [hlive]
    exact hout _ (h.owners k row hrow)
  · rw [hlive]
    exact hout _ (h.answered a ha)

theorem Server.Ok.abort (h : s.Ok) : ({ s with holder := none } : Server).Ok := by
  have hsub : (s.pending.map (·.delivery.id)).Sublist s.live := List.sublist_append_right _ _
  refine h.move (h.nodup.sublist hsub) (fun n hn => hsub.subset hn) fun x hx => ?_
  cases hx

/-! ## Runs -/

/-- What a step can do. -/
theorem step_cases {input : Input} (hstep : step s input = some s') :
    (∃ event envelope, s' = { s with
      pending := s.pending ++ [{ delivery := { id := s.next, event, envelope } }]
      next := s.next + 1 }) ∨
    (∃ i p stop, s.pending[i]? = some p ∧ p.looked = false ∧ s' = s.look i p.delivery stop) ∨
    (∃ i p stop, s.holder = none ∧ s.pending[i]? = some p ∧ p.looked = true ∧
      s' = s.acquire i p.delivery stop) ∨
    (∃ d view work commits, s.holder = some (d, view) ∧ s' = s.conclude d view work commits) ∨
    s' = { s with holder := none } ∨ ∃ events, s' = { s with events } := by
  cases input with
  | deliver event envelope =>
    exact .inl ⟨event, envelope, (Option.some.inj hstep).symm⟩
  | look i stop =>
    obtain ⟨p, hp, hstep⟩ := Option.bind_eq_some_iff.mp hstep
    split at hstep
    · cases hstep
    · rename_i hlooked
      exact .inr (.inl ⟨i, p, stop, hp, Bool.eq_false_iff.mpr hlooked,
        (Option.some.inj hstep).symm⟩)
  | acquire i stop =>
    rw [step] at hstep
    split at hstep
    · cases hstep
    · rename_i hfree
      obtain ⟨p, hp, hstep⟩ := Option.bind_eq_some_iff.mp hstep
      split at hstep
      · rename_i hlooked
        exact .inr (.inr (.inl ⟨i, p, stop, Option.not_isSome_iff_eq_none.mp hfree, hp, hlooked,
          (Option.some.inj hstep).symm⟩))
      · cases hstep
  | conclude work commits =>
    obtain ⟨⟨d, view⟩, hholder, rfl⟩ := Option.map_eq_some_iff.mp hstep
    exact .inr (.inr (.inr (.inl ⟨d, view, work, commits, hholder, rfl⟩)))
  | abort => exact .inr (.inr (.inr (.inr (.inl (Option.some.inj hstep).symm))))
  | retain event envelope =>
    exact .inr (.inr (.inr (.inr (.inr ⟨_, (Option.some.inj hstep).symm⟩))))

theorem Server.Ok.step (h : s.Ok) {input : Input} (hstep : step s input = some s') : s'.Ok := by
  obtain ⟨event, envelope, rfl⟩ | ⟨i, p, stop, hp, -, rfl⟩ | ⟨i, p, stop, hfree, hp, -, rfl⟩ |
    ⟨d, view, work, commits, hholder, rfl⟩ | rfl | ⟨events, rfl⟩ := step_cases hstep
  · exact h.deliver event envelope
  · exact h.look hp stop
  · exact h.acquire hp hfree stop
  · exact h.conclude hholder work commits
  · exact h.abort
  · exact { h with }

/-- An answer to a delivery of an event that has its verdict. Deliveries from
before the verdict may have looked too early, and are then told to try again
for want of a ledger or of room. -/
def Answer.Follows (row : Row) (next : Nat) (a : Answer) : Prop :=
  a.result = row.status.answer ∨ a.stage = .screen ∨ a.stage = .admission ∧ a.delivery.id < next

/-- Since `s₀` the verdict stands and the answers follow it. -/
structure Server.Stands (s₀ : Server) (k : EventRef) (row : Row) (s : Server) : Prop where
  kept : s.store.inbox.lookup k = some row
  next : s₀.next ≤ s.next
  looked : ∀ p ∈ s.pending, p.delivery.event = k → s₀.next ≤ p.delivery.id → p.looked = false
  log : ∃ later, s.log = s₀.log ++ later ∧
    ∀ a ∈ later, a.delivery.event = k → a.Follows row s₀.next

variable {s₀ : Server}

theorem Server.Stands.answer (h : s₀.Stands k row s) {stage : Stage} {result : Result}
    (ha : d.event = k → Answer.Follows row s₀.next { delivery := d, stage, result }) :
    s₀.Stands k row (s.answer d stage result) := by
  refine { h with log := ?_ }
  obtain ⟨later, hlog, hlater⟩ := h.log
  refine ⟨later ++ [_], by rw [Server.answer, hlog, List.append_assoc], fun a hmem => ?_⟩
  rcases List.mem_append.mp hmem with hmem | hmem
  · exact hlater a hmem
  · obtain rfl := List.mem_singleton.mp hmem
    exact ha

theorem Server.Stands.remove (h : s₀.Stands k row s) (i : Nat) : s₀.Stands k row (s.remove i) :=
  { h with looked := fun p hp => h.looked p (List.mem_of_mem_eraseIdx hp) }

theorem Server.Stands.look (h : s₀.Stands k row s) {i : Nat} (stop : Option Result) :
    s₀.Stands k row (s.look i d stop) := by
  unfold Server.look
  split
  · exact (h.remove i).answer fun _ => .inr (.inl rfl)
  · split
    · rename_i row' hrow'
      refine (h.remove i).answer fun hevent => .inl ?_
      rw [hevent, h.kept] at hrow'
      rw [Option.some.inj hrow']
    · rename_i hnone
      refine { h with looked := fun q hq hevent hid => ?_ }
      rcases List.mem_or_eq_of_mem_set hq with hq | rfl
      · exact h.looked q hq hevent hid
      · rw [show d.event = k from hevent, h.kept] at hnone
        cases hnone

theorem Server.Stands.acquire (h : s₀.Stands k row s) {i : Nat} {p : Pending}
    (hp : s.pending[i]? = some p) (hlooked : p.looked = true) (stop : Option String) :
    s₀.Stands k row (s.acquire i p.delivery stop) := by
  unfold Server.acquire
  split
  · refine (h.remove i).answer fun hevent => .inr (.inr ⟨rfl, ?_⟩)
    by_contra hid
    have hfalse := h.looked p (List.mem_of_getElem? hp) hevent (Nat.le_of_not_lt hid)
    exact Bool.false_ne_true (hfalse.symm.trans hlooked)
  · split
    · rename_i row' hrow'
      refine (h.remove i).answer fun hevent => .inl ?_
      rw [hevent, h.kept] at hrow'
      rw [Option.some.inj hrow']
    · exact { h.remove i with }

/-- Another event's verdict leaves this one alone. -/
theorem lookup_conclude (hnew : t.inbox.lookup d.event = none)
    (hrow : t.inbox.lookup k = some row) (conflict : Bool) (work : Work) :
    (conclude (t.claim d) d conflict work).view.inbox.lookup k = some row := by
  have hne : k ≠ d.event := by
    rintro rfl
    rw [hnew] at hrow
    cases hrow
  have hrecord : ∀ status, (t.record d status).inbox.lookup k = some row := by
    intro status
    rw [Store.record, Table.lookup_insert_ite, if_neg hne]
    exact hrow
  obtain ⟨hview, -⟩ | ⟨⟨status, -, hview | ⟨-, hview⟩⟩, -⟩ := conclude_cases hnew conflict work
  · rw [hview]
    exact hrow
  · rw [hview]
    exact hrecord status
  · rw [hview]
    exact hrecord status

theorem Server.Stands.conclude (h : s₀.Stands k row s) (hok : s.Ok) {view : Store}
    (hholder : s.holder = some (d, view)) (work : Work) (commits : Bool) :
    s₀.Stands k row (s.conclude d view work commits) := by
  obtain ⟨hview, hnew⟩ := hok.holder _ hholder
  obtain rfl : view = s.store.claim d := hview
  have hreport : ∀ s₁, s₀.Stands k row s₁ → ∀ result, s₀.Stands k row (s₁.report d result) := by
    intro s₁ h₁ result
    unfold Server.report
    split
    · exact h₁
    · refine h₁.answer fun hevent => ?_
      rw [show d.event = k from hevent, h.kept] at hnew
      cases hnew
  have hfree : s₀.Stands k row { s with holder := none } := { h with }
  unfold Server.conclude
  split
  · apply hreport
    exact ⟨lookup_conclude hnew h.kept _ work, h.next, h.looked, h.log⟩
  · exact hreport _ hfree _

theorem Server.Stands.step (h : s₀.Stands k row s) (hok : s.Ok) {input : Input}
    (hstep : step s input = some s') : s₀.Stands k row s' := by
  obtain ⟨event, envelope, rfl⟩ | ⟨i, p, stop, hp, -, rfl⟩ | ⟨i, p, stop, -, hp, hlooked, rfl⟩ |
    ⟨d, view, work, commits, hholder, rfl⟩ | rfl | ⟨events, rfl⟩ := step_cases hstep
  · refine { h with next := Nat.le_trans h.next (Nat.le_succ _), looked := fun p hp => ?_ }
    rcases List.mem_append.mp hp with hp | hp
    · exact h.looked p hp
    · obtain rfl := List.mem_singleton.mp hp
      exact fun _ _ => rfl
  · exact h.look stop
  · exact h.acquire hp hlooked stop
  · exact h.conclude hok hholder work commits
  · exact { h with }
  · exact { h with }

theorem Server.Ok.stands (h : s.Ok) (hrow : s.store.inbox.lookup k = some row)
    {more : List Input} (hrun : Exec Inbox.step Always s more s') : s.Stands k row s' := by
  have hboth : s'.Ok ∧ s.Stands k row s' := by
    refine hrun.invariant (I := fun s' => s'.Ok ∧ s.Stands k row s')
      (fun _ _ _ hs _ hstep => ⟨hs.1.step hstep, hs.2.step hs.1 hstep⟩)
      ⟨h, hrow, le_rfl, fun p hp _ hid => ?_, [], (List.append_nil _).symm, ?_⟩
    · have hlive := h.live p.delivery.id
        (List.mem_append_right _ (List.mem_map.mpr ⟨p, hp, rfl⟩))
      exact absurd hlive (Nat.not_lt_of_le hid)
    · exact fun a ha => absurd ha List.not_mem_nil
  exact hboth.2

/-- The work of an event is committed once at most, the counters count the
rows, a delivery told to try again leaves nothing behind unless it is a media
deletion being passed on, and a verdict stands: later deliveries that come to
look at the inbox get it for an answer. -/
theorem inbox_exactly_once {events : Table EventRef String} {is : List Input}
    (hrun : Exec step Always { events } is s) :
    (s.store.work.map Prod.fst).Nodup ∧
      (∀ origin, s.store.peers origin = s.store.rowsOf origin) ∧
      s.store.total = s.store.inbox.keys.length ∧
      (∀ a ∈ s.log, a.Clean s.store) ∧
      ∀ k row, s.store.inbox.lookup k = some row → row.status ≠ .received ∧
        ∀ more s', Exec step Always s more s' →
          s'.store.inbox.lookup k = some row ∧ ∃ later, s'.log = s.log ++ later ∧
            ∀ a ∈ later, a.delivery.event = k → a.Follows row s.next := by
  have hok : s.Ok := by
    refine hrun.invariant (fun _ _ _ h _ hstep => h.step hstep) ?_
    refine ⟨⟨fun _ => rfl, rfl, fun k row hrow => ?_, List.nodup_nil, fun w hw => ?_⟩,
      fun h hh => ?_, List.nodup_nil, fun n hn => ?_, fun k row hrow => ?_, fun a ha => ?_,
      fun a ha => ?_⟩
    · cases hrow
    · exact absurd hw List.not_mem_nil
    · cases hh
    · exact absurd hn List.not_mem_nil
    · cases hrow
    · exact absurd ha List.not_mem_nil
    · exact absurd ha List.not_mem_nil
  refine ⟨hok.store.work, hok.store.peers, hok.store.total, hok.clean, fun k row hrow => ?_⟩
  refine ⟨hok.store.verdict k row hrow, fun more s' hmore => ?_⟩
  have hstands := hok.stands hrow hmore
  exact ⟨hstands.kept, hstands.log⟩

def sampleEvent : EventRef := ("b.example", "e1")

/-- Two deliveries of one event find no row; one is processed, the other one
then finds the row, and so does a third. -/
def sampleRace : List Input :=
  [.deliver sampleEvent "x", .deliver sampleEvent "x", .look 0 none, .look 1 none,
    .acquire 0 none, .conclude (.done false) true, .acquire 0 none, .deliver sampleEvent "x",
    .look 0 none]

theorem inbox_exactly_once_race :
    ∃ s, Exec step Always {} sampleRace s ∧
      s.log.map (·.result) = [.accepted, .duplicate, .duplicate] ∧
      s.store.work = [(sampleEvent, 0)] ∧
      s.store.total = s.store.inbox.keys.length ∧
      ∀ origin, s.store.peers origin = s.store.rowsOf origin := by
  have hfinal : (runFrom step Always {} sampleRace).map
      (fun s => (s.log.map (·.result), s.store.work)) =
        some ([.accepted, .duplicate, .duplicate], [(sampleEvent, 0)]) := by
    decide +kernel
  obtain ⟨s, hs, hsame⟩ := Option.map_eq_some_iff.mp hfinal
  obtain ⟨hlog, hwork⟩ := Prod.mk.inj hsame
  have hrun := Exec.of_runFrom hs
  obtain ⟨-, hpeers, htotal, -⟩ := inbox_exactly_once hrun
  exact ⟨s, hrun, hlog, hwork, htotal, hpeers⟩

/-- A media deletion is committed and its sender told to try again. -/
theorem inbox_retry_after_commit :
    ¬ ∀ (is : List Input) (s : Server), Exec step Always {} is s →
      ∀ a ∈ s.log, ∀ code, a.result = .retry code →
        s.store.inbox.lookup a.delivery.event = none ∧ ∀ w ∈ s.store.work, w.2 ≠ a.delivery.id := by
  intro h
  have hfinal : (runFrom step Always {} [.deliver sampleEvent "x", .look 0 none, .acquire 0 none,
      .conclude (.done true) true]).map (fun s => (s.log, s.store.work)) =
        some ([⟨⟨0, sampleEvent, "x"⟩, .work, .retry cascadePending⟩], [(sampleEvent, 0)]) := by
    decide +kernel
  obtain ⟨s, hs, hsame⟩ := Option.map_eq_some_iff.mp hfinal
  obtain ⟨hlog, hwork⟩ := Prod.mk.inj hsame
  have hclean := h _ s (Exec.of_runFrom hs)
  rw [hlog, hwork] at hclean
  exact (hclean _ List.mem_cons_self _ rfl).2 _ List.mem_cons_self rfl

end Inbox

end Kaede
