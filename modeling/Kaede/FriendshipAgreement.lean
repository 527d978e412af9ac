import Kaede.Relationship

/-!
# Agreement of two homes about one friendship

Two homes, one user on each, and one queue of events in each direction,
delivered in order and without loss. Each home runs the row functions of
`Relationship`; with one pending request at most, the quotas never apply.
Request ids are random tokens, so each new one is fresh.

Requests and acceptances carry an id, removals do not. A removal that
crosses a request on the wire therefore erases whatever row it finds. The
invariant below says what the two rows and the two queues know about each
other as long as that does not happen.
-/

namespace Kaede

inductive Party where
  | a
  | b
deriving DecidableEq, Repr

def Party.peer : Party → Party
  | .a => .b
  | .b => .a

/-- Both homes' rows for the pair, and the events each has sent that the
other has not applied yet, oldest first. -/
structure Pair where
  row : Party → Option Relation
  queue : Party → List RelationshipEvent
  fresh : Nat

inductive PairInput where
  | request (p : Party)
  | accept (p : Party)
  | remove (p : Party)
  | block (p : Party)
  | unblock (p : Party)
  | deliver (p : Party)
deriving DecidableEq, Repr

namespace Pair

def init : Pair := { row := fun _ => none, queue := fun _ => [], fresh := 0 }

/-- `p` stores `row` and sends `events`. -/
def commit (s : Pair) (p : Party) (row : Option Relation) (events : List RelationshipEvent) :
    Pair :=
  { s with
    row := fun q => if q = p then row else s.row q
    queue := fun q => if q = p then s.queue p ++ events else s.queue q }

/-- The event at the head of the queue towards `p` is gone. -/
def received (s : Pair) (p : Party) (rest : List RelationshipEvent) : Pair :=
  { s with queue := fun q => if q = p.peer then rest else s.queue q }

/-- One call of a user or one delivery. A refused call and a rejected event
leave both rows as they are. -/
def step (s : Pair) : PairInput → Option Pair
  | .request p =>
      match Relation.request (s.row p) s.fresh with
      | .error _ => some s
      | .ok (row, events) => some { s.commit p row events with fresh := s.fresh + 1 }
  | .accept p =>
      match Relation.accept (s.row p) with
      | .error _ => some s
      | .ok (row, events) => some (s.commit p row events)
  | .remove p => some (s.commit p (Relation.unlessBlocked (s.row p)) [.remove])
  | .block p => some (s.commit p (some .blocked) [.remove])
  | .unblock p => some (s.commit p (Relation.unblocked (s.row p)) [])
  | .deliver p =>
      match s.queue p.peer with
      | [] => none
      | e :: rest =>
          match e.apply (s.row p) with
          | .error _ => some (s.received p rest)
          | .ok x => some ((s.received p rest).commit p x.row x.replies)

/-- No event in flight. -/
def Quiescent (s : Pair) : Prop := ∀ p, s.queue p = []

end Pair

def RelationshipEvent.isRequest : RelationshipEvent → Bool
  | .request _ => true
  | _ => false

/-- Removals and requests do not cross: nobody starts a request while a
removal is on its way to them, or removes or blocks while a request is. -/
def Pair.NoCrossing (s : Pair) : PairInput → Prop
  | .request p => s.row p = none → .remove ∉ s.queue p.peer
  | .remove p => (s.queue p.peer).any RelationshipEvent.isRequest = false
  | .block p => (s.queue p.peer).any RelationshipEvent.isRequest = false
  | _ => True

instance (s : Pair) (i : PairInput) : Decidable (s.NoCrossing i) := by
  unfold Pair.NoCrossing
  cases i <;> infer_instance

/-! ## The invariant, seen from one side -/

abbrev incoming (r : Nat) : Option Relation := some (.pendingIn (some r))

abbrev outgoing (r : Nat) : Option Relation := some (.pendingOut (some r))

abbrev req (r : Nat) : RelationshipEvent := .request (some r)

abbrev acc (r : Nat) : RelationshipEvent := .accept (some r)

/-- Somewhere in the queue a removal follows `e`. -/
def RemovedAfter (e : RelationshipEvent) : List RelationshipEvent → Prop
  | [] => False
  | x :: xs => (x = e ∧ .remove ∈ xs) ∨ RemovedAfter e xs

theorem removedAfter_append (e x : RelationshipEvent) (l : List RelationshipEvent) :
    RemovedAfter e (l ++ [x]) ↔ RemovedAfter e l ∨ (e ∈ l ∧ x = .remove) := by
  induction l with
  | nil => simp [RemovedAfter]
  | cons y l ih =>
      rw [List.cons_append, RemovedAfter, RemovedAfter, ih, List.mem_append, List.mem_singleton,
        List.mem_cons, @eq_comm _ .remove x, @eq_comm _ e y]
      tauto

theorem RemovedAfter.append {e x : RelationshipEvent} {l : List RelationshipEvent}
    (h : RemovedAfter e l) : RemovedAfter e (l ++ [x]) :=
  (removedAfter_append e x l).mpr (.inl h)

theorem removedAfter_append_remove {e : RelationshipEvent} {l : List RelationshipEvent}
    (h : e ∈ l) : RemovedAfter e (l ++ [.remove]) :=
  (removedAfter_append e .remove l).mpr (.inr ⟨h, rfl⟩)

theorem RemovedAfter.remove_mem {e : RelationshipEvent} {l : List RelationshipEvent}
    (h : RemovedAfter e l) : .remove ∈ l := by
  induction l with
  | nil => exact h.elim
  | cons y l ih =>
      rcases h with h | h
      · exact List.mem_cons_of_mem _ h.2
      · exact List.mem_cons_of_mem _ (ih h)

theorem RemovedAfter.mem {e : RelationshipEvent} {l : List RelationshipEvent}
    (h : RemovedAfter e l) : e ∈ l := by
  induction l with
  | nil => exact h.elim
  | cons y l ih =>
      rcases h with h | h
      · rw [h.1]
        exact List.mem_cons_self
      · exact List.mem_cons_of_mem _ (ih h)

/-- The queue with an event behind it. -/
theorem mem_snoc {e x : RelationshipEvent} {l : List RelationshipEvent} (h : x ∈ l ++ [e]) :
    x ∈ l ∨ x = e :=
  (List.mem_append.mp h).imp_right List.mem_singleton.mp

/-- What the events in the two queues know of each other, where ids below
`n` are used up. -/
structure Wire (n : Nat) (out inc : List RelationshipEvent) : Prop where
  form : ∀ e ∈ out, e = .remove ∨ (∃ r, r < n ∧ e = req r) ∨ ∃ r, r < n ∧ e = acc r
  /-- A request and a removal never travel towards each other. -/
  noCross : ∀ r, req r ∈ out → .remove ∉ inc
  unanswered : ∀ r, req r ∈ out → acc r ∉ inc
  oneWay : ∀ r, req r ∈ out → req r ∉ inc
  once : out.Pairwise fun x y => x = y → ∀ r, x ≠ req r

/-- What a home knows of its row `mine` from the two queues. -/
structure Own (n : Nat) (mine : Option Relation) (out inc : List RelationshipEvent) : Prop where
  form : mine = none ∨ mine = some .friend ∨ mine = some .blocked
    ∨ (∃ r, r < n ∧ mine = incoming r) ∨ ∃ r, r < n ∧ mine = outgoing r
  friendClean : mine = some .friend → .remove ∉ out
  incomingClean : ∀ r, mine = incoming r → .remove ∉ out
  acceptedClean : ∀ r, mine = outgoing r → acc r ∈ inc → .remove ∉ out
  /-- A request still on its way stands, unless it was withdrawn after. -/
  requestBacked : ∀ r, req r ∈ out →
    RemovedAfter (req r) out ∨ mine = outgoing r ∨ mine = some .friend
  outgoingLive : ∀ r, mine = outgoing r → ¬ RemovedAfter (req r) out

/-- What the row `mine` and the queues say about the row `theirs` of the
peer. -/
structure Facing (mine theirs : Option Relation) (out inc : List RelationshipEvent) : Prop where
  /-- A friend is about to be removed, or is answered, or will be. -/
  friendBacked : mine = some .friend →
    .remove ∈ inc ∨ theirs = some .friend ∨ ∃ r, theirs = outgoing r ∧ acc r ∈ out
  matchedClean : ∀ r, mine = outgoing r → theirs = incoming r → .remove ∉ out
  incomingBacked : ∀ r, mine = incoming r → .remove ∈ inc ∨ theirs = outgoing r
  undelivered : ∀ r, req r ∈ out → theirs ≠ incoming r ∧ theirs ≠ outgoing r
  /-- An acceptance on its way comes from a friend, unless withdrawn after. -/
  acceptBacked : ∀ r, mine = outgoing r → acc r ∈ inc →
    RemovedAfter (acc r) inc ∨ theirs = some .friend

/-- What a home with row `mine`, outgoing queue `out` and incoming queue
`inc` may rely on, when its peer's row is `theirs`. -/
structure Half (n : Nat) (mine theirs : Option Relation) (out inc : List RelationshipEvent) :
    Prop where
  wire : Wire n out inc
  own : Own n mine out inc
  facing : Facing mine theirs out inc

/-- Both sides' views. -/
def Agree (n : Nat) (mine theirs : Option Relation) (out inc : List RelationshipEvent) : Prop :=
  Half n mine theirs out inc ∧ Half n theirs mine inc out

/-- A row without a request and without a friendship. -/
def Unrelated (row : Option Relation) : Prop := row = none ∨ row = some .blocked

section

variable {n r : Nat} {e : RelationshipEvent} {row mine theirs : Option Relation}
  {out out' inc inc' : List RelationshipEvent}

theorem Unrelated.ne_friend (h : Unrelated row) : row ≠ some .friend := by
  rcases h with rfl | rfl <;> decide

theorem Unrelated.ne_incoming (h : Unrelated row) (r : Nat) : row ≠ incoming r := by
  rcases h with rfl | rfl <;> intro h <;> cases h

theorem Unrelated.ne_outgoing (h : Unrelated row) (r : Nat) : row ≠ outgoing r := by
  rcases h with rfl | rfl <;> intro h <;> cases h

theorem friend_ne_incoming (r : Nat) : some Relation.friend ≠ incoming r := by
  intro h
  cases h

theorem friend_ne_outgoing (r : Nat) : some Relation.friend ≠ outgoing r := by
  intro h
  cases h

theorem incoming_ne_outgoing (r r' : Nat) : incoming r ≠ outgoing r' := by
  intro h
  cases h

theorem incoming_inj {r r' : Nat} (h : incoming r = incoming r') : r = r' := by
  cases h
  rfl

theorem outgoing_inj {r r' : Nat} (h : outgoing r = outgoing r') : r = r' := by
  cases h
  rfl

theorem req_inj {r r' : Nat} (h : req r = req r') : r = r' := by
  cases h
  rfl

theorem acc_inj {r r' : Nat} (h : acc r = acc r') : r = r' := by
  cases h
  rfl

theorem req_ne_remove (r : Nat) : req r ≠ .remove := by
  intro h
  cases h

theorem acc_ne_remove (r : Nat) : acc r ≠ .remove := by
  intro h
  cases h

theorem req_ne_acc (r r' : Nat) : req r ≠ acc r' := by
  intro h
  cases h

/-! ### The queues -/

theorem Wire.lt_of_req (k : Wire n out inc) (h : req r ∈ out) : r < n := by
  rcases k.form _ h with h | ⟨r', hr', h⟩ | ⟨r', -, h⟩
  · cases h
  · exact req_inj h ▸ hr'
  · cases h

theorem Wire.lt_of_acc (k : Wire n out inc) (h : acc r ∈ out) : r < n := by
  rcases k.form _ h with h | ⟨r', -, h⟩ | ⟨r', hr', h⟩
  · cases h
  · cases h
  · exact acc_inj h ▸ hr'

/-- Deliveries take events off, and nothing that is left gets worse. -/
theorem Wire.sublist (k : Wire n out inc) (hout : out'.Sublist out) (hinc : inc'.Sublist inc) :
    Wire n out' inc' where
  form := fun e he => k.form e (hout.subset he)
  noCross := fun r hr h => k.noCross r (hout.subset hr) (hinc.subset h)
  unanswered := fun r hr h => k.unanswered r (hout.subset hr) (hinc.subset h)
  oneWay := fun r hr h => k.oneWay r (hout.subset hr) (hinc.subset h)
  once := k.once.sublist hout

theorem Wire.mono (k : Wire n out inc) : Wire (n + 1) out inc :=
  { k with
    form := fun e he => (k.form e he).imp_right
      (Or.imp (fun ⟨r, hr, h⟩ => ⟨r, Nat.lt_succ_of_lt hr, h⟩)
        fun ⟨r, hr, h⟩ => ⟨r, Nat.lt_succ_of_lt hr, h⟩) }

/-- An event is sent; a request is the only one there is of its id. -/
theorem Wire.send (k : Wire n out inc)
    (hform : e = .remove ∨ (∃ r, r < n ∧ e = req r) ∨ ∃ r, r < n ∧ e = acc r)
    (hreq : ∀ r, e = req r → .remove ∉ inc ∧ acc r ∉ inc ∧ req r ∉ inc ∧ req r ∉ out) :
    Wire n (out ++ [e]) inc where
  form := fun x hx => by
    rcases mem_snoc hx with hx | rfl
    · exact k.form x hx
    · exact hform
  noCross := fun r hr => by
    rcases mem_snoc hr with hr | hr
    · exact k.noCross r hr
    · exact (hreq r hr.symm).1
  unanswered := fun r hr => by
    rcases mem_snoc hr with hr | hr
    · exact k.unanswered r hr
    · exact (hreq r hr.symm).2.1
  oneWay := fun r hr => by
    rcases mem_snoc hr with hr | hr
    · exact k.oneWay r hr
    · exact (hreq r hr.symm).2.2.1
  once := by
    refine List.pairwise_append.mpr ⟨k.once, List.pairwise_singleton _ _, ?_⟩
    rintro x hx y hy hsame r rfl
    rw [List.mem_singleton] at hy
    exact (hreq r (hy ▸ hsame.symm)).2.2.2 hx

/-- An event is sent by the peer. -/
theorem Wire.sent (k : Wire n out inc)
    (h : ∀ r, req r ∈ out → e ≠ .remove ∧ e ≠ acc r ∧ e ≠ req r) : Wire n out (inc ++ [e]) where
  form := k.form
  noCross := fun r hr hmem => by
    rcases mem_snoc hmem with hmem | hmem
    · exact k.noCross r hr hmem
    · exact (h r hr).1 hmem.symm
  unanswered := fun r hr hmem => by
    rcases mem_snoc hmem with hmem | hmem
    · exact k.unanswered r hr hmem
    · exact (h r hr).2.1 hmem.symm
  oneWay := fun r hr hmem => by
    rcases mem_snoc hmem with hmem | hmem
    · exact k.oneWay r hr hmem
    · exact (h r hr).2.2 hmem.symm
  once := k.once

/-! ### The own row -/

theorem Own.unrelated (hrow : Unrelated row)
    (hback : ∀ r, req r ∈ out → RemovedAfter (req r) out) : Own n row out inc where
  form := hrow.imp_right fun h => .inr (.inl h)
  friendClean := fun h => absurd h hrow.ne_friend
  incomingClean := fun r h => absurd h (hrow.ne_incoming r)
  acceptedClean := fun r h => absurd h (hrow.ne_outgoing r)
  requestBacked := fun r hr => .inl (hback r hr)
  outgoingLive := fun r h => absurd h (hrow.ne_outgoing r)

theorem Own.friend (hclean : .remove ∉ out) : Own n (some .friend) out inc where
  form := .inr (.inl rfl)
  friendClean := fun _ => hclean
  incomingClean := fun r h => absurd h (friend_ne_incoming r)
  acceptedClean := fun r h => absurd h (friend_ne_outgoing r)
  requestBacked := fun _ _ => .inr (.inr rfl)
  outgoingLive := fun r h => absurd h (friend_ne_outgoing r)

theorem Own.incoming (hr : r < n) (hclean : .remove ∉ out) (hreq : ∀ r, req r ∉ out) :
    Own n (incoming r) out inc where
  form := .inr (.inr (.inr (.inl ⟨r, hr, rfl⟩)))
  friendClean := fun h => absurd h.symm (friend_ne_incoming r)
  incomingClean := fun _ _ => hclean
  acceptedClean := fun r' h => absurd h (incoming_ne_outgoing r r')
  requestBacked := fun r' h => absurd h (hreq r')
  outgoingLive := fun r' h => absurd h (incoming_ne_outgoing r r')

/-- Requests on their way from a home that has none and no friend were
withdrawn. -/
theorem Own.withdrawn (k : Own n mine out inc) (hfriend : mine ≠ some .friend)
    (hout : ∀ r, mine ≠ outgoing r) (h : req r ∈ out) : RemovedAfter (req r) out :=
  (k.requestBacked r h).resolve_right fun hback => hback.elim (hout r) hfriend

theorem Own.mono (k : Own n mine out inc) : Own (n + 1) mine out inc :=
  { k with
    form := k.form.imp_right (Or.imp_right (Or.imp_right
      (Or.imp (fun ⟨r, hr, h⟩ => ⟨r, Nat.lt_succ_of_lt hr, h⟩)
        fun ⟨r, hr, h⟩ => ⟨r, Nat.lt_succ_of_lt hr, h⟩))) }

/-- Of the incoming queue only an acceptance of the own request matters. -/
theorem Own.of_inc (k : Own n mine out inc)
    (hinc : ∀ r, mine = outgoing r → acc r ∈ inc' → acc r ∈ inc ∨ .remove ∉ out) :
    Own n mine out inc' :=
  { k with
    acceptedClean := fun r hr hacc => (hinc r hr hacc).elim (k.acceptedClean r hr) fun h => h }

/-- The oldest event of the queue is delivered. -/
theorem Own.tail (k : Own n mine (e :: out) inc)
    (honce : (e :: out).Pairwise fun x y => x = y → ∀ r, x ≠ req r) : Own n mine out inc where
  form := k.form
  friendClean := fun h hmem => k.friendClean h (List.mem_cons_of_mem _ hmem)
  incomingClean := fun r h hmem => k.incomingClean r h (List.mem_cons_of_mem _ hmem)
  acceptedClean := fun r h hacc hmem => k.acceptedClean r h hacc (List.mem_cons_of_mem _ hmem)
  requestBacked := fun r hr => by
    rcases k.requestBacked r (List.mem_cons_of_mem _ hr) with (⟨rfl, -⟩ | h) | h
    · exact absurd rfl ((List.pairwise_cons.mp honce).1 _ hr rfl r)
    · exact .inl h
    · exact .inr h
  outgoingLive := fun r h hremoved => k.outgoingLive r h (.inr hremoved)

/-! ### The row of the peer -/

theorem Facing.of_unrelated (hrow : Unrelated row)
    (hreq : ∀ r, req r ∈ out → theirs ≠ incoming r ∧ theirs ≠ outgoing r) :
    Facing row theirs out inc where
  friendBacked := fun h => absurd h hrow.ne_friend
  matchedClean := fun r h => absurd h (hrow.ne_outgoing r)
  incomingBacked := fun r h => absurd h (hrow.ne_incoming r)
  undelivered := hreq
  acceptBacked := fun r h => absurd h (hrow.ne_outgoing r)

theorem Facing.of_friend
    (hback : .remove ∈ inc ∨ theirs = some .friend ∨ ∃ r, theirs = outgoing r ∧ acc r ∈ out)
    (hreq : ∀ r, req r ∈ out → theirs ≠ incoming r ∧ theirs ≠ outgoing r) :
    Facing (some .friend) theirs out inc where
  friendBacked := fun _ => hback
  matchedClean := fun r h => absurd h (friend_ne_outgoing r)
  incomingBacked := fun r h => absurd h (friend_ne_incoming r)
  undelivered := hreq
  acceptBacked := fun r h => absurd h (friend_ne_outgoing r)

/-- Whoever counts on a peer without a relation hears of it. -/
theorem Facing.unrelated (hrow : Unrelated row) (hfriend : mine = some .friend → .remove ∈ inc)
    (hincoming : ∀ r, mine = incoming r → .remove ∈ inc)
    (haccept : ∀ r, mine = outgoing r → acc r ∈ inc → RemovedAfter (acc r) inc) :
    Facing mine row out inc where
  friendBacked := fun h => .inl (hfriend h)
  matchedClean := fun r _ h => absurd h (hrow.ne_incoming r)
  incomingBacked := fun r h => .inl (hincoming r h)
  undelivered := fun r _ => ⟨hrow.ne_incoming r, hrow.ne_outgoing r⟩
  acceptBacked := fun r h hacc => .inl (haccept r h hacc)

/-- What a home can tell when its peer has no relation. -/
theorem Facing.removed (k : Facing mine row out inc) (hrow : Unrelated row) :
    (mine = some .friend → .remove ∈ inc) ∧ (∀ r, mine = incoming r → .remove ∈ inc) ∧
      ∀ r, mine = outgoing r → acc r ∈ inc → RemovedAfter (acc r) inc := by
  refine ⟨fun h => ?_, fun r h => ?_, fun r h hacc => ?_⟩
  · rcases k.friendBacked h with hremove | hfriend | ⟨r, hout, -⟩
    · exact hremove
    · exact absurd hfriend hrow.ne_friend
    · exact absurd hout (hrow.ne_outgoing r)
  · exact (k.incomingBacked r h).resolve_right (hrow.ne_outgoing r)
  · exact (k.acceptBacked r h hacc).resolve_right hrow.ne_friend

theorem Facing.friend (hincoming : ∀ r, mine = incoming r → .remove ∈ inc) :
    Facing mine (some .friend) out inc where
  friendBacked := fun _ => .inr (.inl rfl)
  matchedClean := fun r _ h => absurd h (friend_ne_incoming r)
  incomingBacked := fun r h => .inl (hincoming r h)
  undelivered := fun r _ => ⟨friend_ne_incoming r, friend_ne_outgoing r⟩
  acceptBacked := fun _ _ _ => .inr rfl

/-! ## One lemma per step -/

/-- A fresh request, with no removal coming back. -/
theorem Agree.request (h : Agree n none theirs out inc) (hinc : .remove ∉ inc) :
    Agree (n + 1) (outgoing n) theirs (out ++ [req n]) inc := by
  obtain ⟨hm, ht⟩ := h
  have hout : req n ∉ out := fun h => Nat.lt_irrefl n (hm.wire.lt_of_req h)
  have hreq : req n ∉ inc := fun h => Nat.lt_irrefl n (ht.wire.lt_of_req h)
  have hacc : acc n ∉ inc := fun h => Nat.lt_irrefl n (ht.wire.lt_of_acc h)
  have hnone : Unrelated none := .inl rfl
  have htheirs : theirs ≠ incoming n ∧ theirs ≠ outgoing n := by
    rcases ht.own.form with rfl | rfl | rfl | ⟨r, hr, rfl⟩ | ⟨r, hr, rfl⟩
    · exact ⟨hnone.ne_incoming n, hnone.ne_outgoing n⟩
    · exact ⟨friend_ne_incoming n, friend_ne_outgoing n⟩
    · exact ⟨Unrelated.ne_incoming (.inr rfl) n, Unrelated.ne_outgoing (.inr rfl) n⟩
    · exact ⟨fun h => Nat.ne_of_lt hr (incoming_inj h), incoming_ne_outgoing r n⟩
    · exact ⟨(incoming_ne_outgoing n r).symm, fun h => Nat.ne_of_lt hr (outgoing_inj h)⟩
  refine ⟨⟨?_, ?_, ?_⟩, ⟨?_, ?_, ?_⟩⟩
  · refine hm.wire.mono.send (.inr (.inl ⟨n, Nat.lt_succ_self n, rfl⟩)) fun r hr => ?_
    obtain rfl := req_inj hr
    exact ⟨hinc, hacc, hreq, hout⟩
  · refine ⟨.inr (.inr (.inr (.inr ⟨n, Nat.lt_succ_self n, rfl⟩))),
      fun h => absurd h.symm (friend_ne_outgoing n),
      fun r h => absurd h.symm (incoming_ne_outgoing r n), fun r h hmem => ?_, fun r hr => ?_,
      fun r h hremoved => ?_⟩
    · exact absurd (outgoing_inj h ▸ hmem) hacc
    · rcases mem_snoc hr with hr | hr
      · exact .inl (hm.own.withdrawn hnone.ne_friend hnone.ne_outgoing hr).append
      · exact .inr (.inl (req_inj hr ▸ rfl))
    · obtain rfl := outgoing_inj h
      rcases (removedAfter_append _ _ _).mp hremoved with hremoved | ⟨hmem, -⟩
      · exact hout hremoved.mem
      · exact hout hmem
  · refine ⟨fun h => absurd h.symm (friend_ne_outgoing n), fun r h hsame => ?_,
      fun r h => absurd h.symm (incoming_ne_outgoing r n), fun r hr => ?_, fun r h hmem => ?_⟩
    · exact absurd (outgoing_inj h ▸ hsame) htheirs.1
    · rcases mem_snoc hr with hr | hr
      · exact hm.facing.undelivered r hr
      · exact req_inj hr ▸ htheirs
    · exact absurd (outgoing_inj h ▸ hmem) hacc
  · refine ht.wire.mono.sent fun r hr => ⟨req_ne_remove n, req_ne_acc n r, fun h => ?_⟩
    exact hreq (req_inj h ▸ hr)
  · refine ht.own.mono.of_inc fun r _ hmem => .inl ?_
    exact (mem_snoc hmem).resolve_right (req_ne_acc n r).symm
  · obtain ⟨hfriend, hincoming, haccept⟩ := ht.facing.removed hnone
    refine ⟨fun h => .inl (List.mem_append_left _ (hfriend h)),
      fun r _ h => absurd h.symm (incoming_ne_outgoing r n),
      fun r h => .inl (List.mem_append_left _ (hincoming r h)), fun r hr => ?_, fun r h hmem => ?_⟩
    · refine ⟨(incoming_ne_outgoing r n).symm, fun h => hreq ?_⟩
      exact (outgoing_inj h).symm ▸ hr
    · refine .inl (haccept r h ?_).append
      exact (mem_snoc hmem).resolve_right (req_ne_acc n r).symm

/-- A home that has a request to answer has sent neither a request nor a
removal. -/
theorem Own.quiet (k : Own n (Kaede.incoming r) out inc) : .remove ∉ out ∧ ∀ r', req r' ∉ out := by
  have hclean := k.incomingClean r rfl
  refine ⟨hclean, fun r' hr' => hclean ?_⟩
  exact (k.withdrawn (friend_ne_incoming r).symm (incoming_ne_outgoing r) hr').remove_mem

theorem Agree.accept (h : Agree n (incoming r) theirs out inc) :
    Agree n (some .friend) theirs (out ++ [acc r]) inc := by
  obtain ⟨hm, ht⟩ := h
  obtain ⟨hclean, hreq⟩ := hm.own.quiet
  have hclean' : .remove ∉ out ++ [acc r] := fun h => by
    rcases mem_snoc h with h | h
    · exact hclean h
    · exact acc_ne_remove r h.symm
  have hr : r < n := by
    rcases hm.own.form with h | h | h | ⟨r', hr', h⟩ | ⟨r', -, h⟩
    · cases h
    · cases h
    · cases h
    · exact incoming_inj h ▸ hr'
    · cases h
  have hunsent : req r ∉ inc := fun h => (ht.facing.undelivered r h).1 rfl
  refine ⟨⟨?_, Own.friend hclean', Facing.of_friend ?_ fun r' hr' => ?_⟩,
    ⟨?_, ?_, Facing.friend fun r' h => ?_⟩⟩
  · exact hm.wire.send (.inr (.inr ⟨r, hr, rfl⟩)) fun r' h => absurd h.symm (req_ne_acc r' r)
  · refine (hm.facing.incomingBacked r rfl).imp_right fun hout => .inr ⟨r, hout, ?_⟩
    exact List.mem_append_right _ List.mem_cons_self
  · rcases mem_snoc hr' with hr' | hr'
    · exact absurd hr' (hreq r')
    · exact absurd hr' (req_ne_acc r' r)
  · refine ht.wire.sent fun r' hr' => ⟨acc_ne_remove r, fun h => ?_, (req_ne_acc r' r).symm⟩
    exact hunsent (acc_inj h ▸ hr')
  · refine ht.own.of_inc fun r' hr' hmem => ?_
    rcases mem_snoc hmem with hmem | hmem
    · exact .inl hmem
    · exact .inr (ht.facing.matchedClean r' hr' (acc_inj hmem ▸ rfl))
  · have hremove := (ht.facing.incomingBacked r' h).resolve_right (incoming_ne_outgoing r r')
    exact List.mem_append_left _ hremove

/-- Removing or blocking, with no request coming in. -/
theorem Agree.withdraw (h : Agree n mine theirs out inc) (hrow : Unrelated row)
    (hinc : ∀ r, req r ∉ inc) : Agree n row theirs (out ++ [.remove]) inc := by
  obtain ⟨hm, ht⟩ := h
  have hremove : .remove ∈ out ++ [.remove] := List.mem_append_right _ List.mem_cons_self
  have hold {x : RelationshipEvent} (hx : x ≠ .remove) (h : x ∈ out ++ [.remove]) : x ∈ out :=
    (mem_snoc h).resolve_right hx
  have hreq (r : Nat) (h : req r ∈ out ++ [.remove]) : req r ∈ out := hold (req_ne_remove r) h
  have hacc (r : Nat) (h : acc r ∈ out ++ [.remove]) : acc r ∈ out := hold (acc_ne_remove r) h
  refine ⟨⟨?_, ?_, ?_⟩, ⟨?_, ?_, ?_⟩⟩
  · exact hm.wire.send (.inl rfl) fun r h => absurd h.symm (req_ne_remove r)
  · exact Own.unrelated hrow fun r hr => removedAfter_append_remove (hreq r hr)
  · exact Facing.of_unrelated hrow fun r hr => hm.facing.undelivered r (hreq r hr)
  · exact ht.wire.sent fun r hr => absurd hr (hinc r)
  · exact ht.own.of_inc fun r _ h => .inl (hacc r h)
  · exact Facing.unrelated hrow (fun _ => hremove) (fun _ _ => hremove)
      fun r _ h => removedAfter_append_remove (hacc r h)

theorem Agree.unblock (h : Agree n (some .blocked) theirs out inc) :
    Agree n none theirs out inc := by
  obtain ⟨hm, ht⟩ := h
  have hnone : Unrelated none := .inl rfl
  have hblocked : Unrelated (some .blocked) := .inr rfl
  obtain ⟨hfriend, hincoming, haccept⟩ := ht.facing.removed hblocked
  refine ⟨⟨hm.wire, ?_, Facing.of_unrelated hnone hm.facing.undelivered⟩,
    ⟨ht.wire, ht.own, Facing.unrelated hnone hfriend hincoming haccept⟩⟩
  exact Own.unrelated hnone fun r => hm.own.withdrawn hblocked.ne_friend hblocked.ne_outgoing

/-- A request about to be delivered to a home has not been answered by it,
and its sender still stands by it or has a removal right behind it. -/
theorem Half.head_request (k : Half n theirs mine (req r :: inc) out) :
    .remove ∉ out ∧ (.remove ∈ inc ∨ theirs = outgoing r ∨ theirs = some .friend)
      ∧ req r ∉ inc := by
  have hmem : req r ∈ req r :: inc := List.mem_cons_self
  refine ⟨k.wire.noCross r hmem, ?_, fun h => ?_⟩
  · rcases k.own.requestBacked r hmem with (h | h) | h
    · exact .inl h.2
    · exact .inl h.remove_mem
    · exact .inr h
  · exact (List.pairwise_cons.mp k.wire.once).1 _ h rfl r rfl

theorem Agree.request_arrives (h : Agree n mine theirs out (req r :: inc))
    (hrow : mine = none ∨ ∃ r, mine = incoming r) :
    Agree n (incoming r) theirs out inc := by
  obtain ⟨hm, ht⟩ := h
  obtain ⟨hremove, hback, honce⟩ := ht.head_request
  have hfriend : mine ≠ some .friend := by
    rcases hrow with rfl | ⟨r', rfl⟩ <;> intro h <;> cases h
  have hout (r' : Nat) : mine ≠ outgoing r' := by
    rcases hrow with rfl | ⟨r', rfl⟩ <;> intro h <;> cases h
  have hunsent (r' : Nat) (h : req r' ∈ out) : False :=
    hremove (hm.own.withdrawn hfriend hout h).remove_mem
  -- the sender is no friend: it has heard nothing that would make it one
  have htheirs : theirs ≠ some .friend := by
    intro h
    rcases ht.facing.friendBacked h with h | h | ⟨r', h, -⟩
    · exact hremove h
    · exact hfriend h
    · exact hout r' h
  have hr : r < n := ht.wire.lt_of_req List.mem_cons_self
  refine ⟨⟨?_, Own.incoming hr hremove hunsent, ?_⟩, ⟨?_, ht.own.tail ht.wire.once, ?_⟩⟩
  · exact hm.wire.sublist (List.Sublist.refl _) (List.sublist_cons_self _ _)
  · refine ⟨fun h => absurd h.symm (friend_ne_incoming r),
      fun r' h => absurd h (incoming_ne_outgoing r r'), fun r' h => ?_,
      fun r' h => (hunsent r' h).elim, fun r' h => absurd h (incoming_ne_outgoing r r')⟩
    exact incoming_inj h ▸ hback.imp_right fun h => h.resolve_right htheirs
  · exact ht.wire.sublist (List.sublist_cons_self _ _) (List.Sublist.refl _)
  · refine ⟨fun h => absurd h htheirs, fun r' h hsame hmem => ?_, fun r' h => ?_, fun r' h => ?_,
      fun r' h hacc => ?_⟩
    · exact ht.own.outgoingLive r' h (.inl ⟨incoming_inj hsame ▸ rfl, hmem⟩)
    · rcases ht.facing.incomingBacked r' h with h | h
      · exact absurd h hremove
      · exact absurd h (hout r')
    · exact ⟨fun hsame => honce (incoming_inj hsame ▸ h), incoming_ne_outgoing r r'⟩
    · rcases ht.facing.acceptBacked r' h hacc with h | h
      · exact absurd h.remove_mem hremove
      · exact absurd h hfriend

/-- Two requests met, or the peer asks again: both become friends. -/
theorem Agree.request_crosses (h : Agree n mine theirs out (req r :: inc)) :
    Agree n (some .friend) theirs (out ++ [acc r]) inc := by
  obtain ⟨hm, ht⟩ := h
  obtain ⟨hremove, hback, honce⟩ := ht.head_request
  have hclean : .remove ∉ out ++ [acc r] := fun h => by
    rcases mem_snoc h with h | h
    · exact hremove h
    · exact acc_ne_remove r h.symm
  have hr : r < n := ht.wire.lt_of_req List.mem_cons_self
  have hwire : Wire n out inc :=
    hm.wire.sublist (List.Sublist.refl _) (List.sublist_cons_self _ _)
  have hwire' : Wire n inc out :=
    ht.wire.sublist (List.sublist_cons_self _ _) (List.Sublist.refl _)
  refine ⟨⟨?_, Own.friend hclean, Facing.of_friend ?_ fun r' hr' => ?_⟩,
    ⟨?_, ?_, Facing.friend fun r' h => ?_⟩⟩
  · exact hwire.send (.inr (.inr ⟨r, hr, rfl⟩)) fun r' h => absurd h.symm (req_ne_acc r' r)
  · rcases hback with h | h | h
    · exact .inl h
    · exact .inr (.inr ⟨r, h, List.mem_append_right _ List.mem_cons_self⟩)
    · exact .inr (.inl h)
  · exact hm.facing.undelivered r' ((mem_snoc hr').resolve_right (req_ne_acc r' r))
  · refine hwire'.sent fun r' hr' => ⟨acc_ne_remove r, fun h => ?_, (req_ne_acc r' r).symm⟩
    exact honce (acc_inj h ▸ hr')
  · refine (ht.own.tail ht.wire.once).of_inc fun r' hr' hmem => ?_
    rcases mem_snoc hmem with hmem | hmem
    · exact .inl hmem
    · exact .inr fun h => ht.own.outgoingLive r' hr' (.inl ⟨acc_inj hmem ▸ rfl, h⟩)
  · -- a home with a request to answer sends no removal, nor a request
    subst h
    rcases hback with h | h | h
    · exact absurd (List.mem_cons_of_mem _ h) ht.own.quiet.1
    · exact absurd h (incoming_ne_outgoing r' r)
    · exact absurd h.symm (friend_ne_incoming r')

theorem Agree.request_blocked (h : Agree n (some .blocked) theirs out (req r :: inc)) :
    Agree n (some .blocked) theirs out inc := by
  obtain ⟨hm, ht⟩ := h
  have hblocked : Unrelated (some .blocked) := .inr rfl
  obtain ⟨hfriend, hincoming, haccept⟩ := ht.facing.removed hblocked
  refine ⟨⟨?_, ?_, Facing.of_unrelated hblocked hm.facing.undelivered⟩,
    ⟨?_, ht.own.tail ht.wire.once, Facing.unrelated hblocked hfriend hincoming haccept⟩⟩
  · exact hm.wire.sublist (List.Sublist.refl _) (List.sublist_cons_self _ _)
  · exact hm.own.of_inc fun r' h => absurd h (hblocked.ne_outgoing r')
  · exact ht.wire.sublist (List.sublist_cons_self _ _) (List.Sublist.refl _)

theorem Agree.accept_arrives (h : Agree n (outgoing r) theirs out (acc r :: inc)) :
    Agree n (some .friend) theirs out inc := by
  obtain ⟨hm, ht⟩ := h
  have hclean : .remove ∉ out := hm.own.acceptedClean r rfl List.mem_cons_self
  have hback : .remove ∈ inc ∨ theirs = some .friend := by
    rcases hm.facing.acceptBacked r rfl List.mem_cons_self with (h | h) | h
    · exact .inl h.2
    · exact .inl h.remove_mem
    · exact .inr h
  refine ⟨⟨?_, Own.friend hclean, Facing.of_friend (hback.imp_right .inl) hm.facing.undelivered⟩,
    ⟨?_, ht.own.tail ht.wire.once, Facing.friend fun r' h => ?_⟩⟩
  · exact hm.wire.sublist (List.Sublist.refl _) (List.sublist_cons_self _ _)
  · exact ht.wire.sublist (List.sublist_cons_self _ _) (List.Sublist.refl _)
  · subst h
    rcases hback with h | h
    · exact absurd (List.mem_cons_of_mem _ h) ht.own.quiet.1
    · exact absurd h.symm (friend_ne_incoming r')

/-- The acceptance of another request, or of one that is no longer there. -/
theorem Agree.accept_ignored (h : Agree n mine theirs out (acc r :: inc))
    (hrow : mine ≠ outgoing r) : Agree n mine theirs out inc := by
  obtain ⟨hm, ht⟩ := h
  have hremove (h : .remove ∈ acc r :: inc) : .remove ∈ inc :=
    (List.mem_cons.mp h).resolve_left (acc_ne_remove r).symm
  refine ⟨⟨?_, ?_, ?_⟩, ⟨?_, ht.own.tail ht.wire.once, ?_⟩⟩
  · exact hm.wire.sublist (List.Sublist.refl _) (List.sublist_cons_self _ _)
  · exact hm.own.of_inc fun _ _ h => .inl (List.mem_cons_of_mem _ h)
  · refine { hm.facing with
      friendBacked := fun h => (hm.facing.friendBacked h).imp_left hremove
      incomingBacked := fun r' h => (hm.facing.incomingBacked r' h).imp_left hremove
      acceptBacked := fun r' h hacc => ?_ }
    refine (hm.facing.acceptBacked r' h (List.mem_cons_of_mem _ hacc)).imp_left fun hafter => ?_
    exact hafter.resolve_left fun hsame => hrow (acc_inj hsame.1 ▸ h)
  · exact ht.wire.sublist (List.sublist_cons_self _ _) (List.Sublist.refl _)
  · refine { ht.facing with
      friendBacked := fun h => ?_
      matchedClean := fun r' h hsame hmem =>
        ht.facing.matchedClean r' h hsame (List.mem_cons_of_mem _ hmem)
      undelivered := fun r' h => ht.facing.undelivered r' (List.mem_cons_of_mem _ h) }
    refine (ht.facing.friendBacked h).imp_right (Or.imp_right ?_)
    rintro ⟨r', hout, hacc⟩
    refine ⟨r', hout, ?_⟩
    exact (List.mem_cons.mp hacc).resolve_left fun hsame => hrow (acc_inj hsame ▸ hout)

theorem Agree.remove_arrives (h : Agree n mine theirs out (.remove :: inc))
    (hrow : Unrelated row) : Agree n row theirs out inc := by
  obtain ⟨hm, ht⟩ := h
  have hhead : .remove ∈ .remove :: inc := List.mem_cons_self
  refine ⟨⟨?_, Own.unrelated hrow fun r hr => absurd hhead (hm.wire.noCross r hr),
      Facing.of_unrelated hrow hm.facing.undelivered⟩,
    ⟨?_, ht.own.tail ht.wire.once, Facing.unrelated hrow (fun h => ?_) (fun r h => ?_)
      fun r h hacc => ?_⟩⟩
  · exact hm.wire.sublist (List.Sublist.refl _) (List.sublist_cons_self _ _)
  · exact ht.wire.sublist (List.sublist_cons_self _ _) (List.Sublist.refl _)
  · exact absurd hhead (ht.own.friendClean h)
  · exact absurd hhead (ht.own.incomingClean r h)
  · exact absurd hhead (ht.own.acceptedClean r h hacc)

theorem Half.mono (h : Half n mine theirs out inc) : Half (n + 1) mine theirs out inc :=
  ⟨h.wire.mono, h.own.mono, h.facing⟩

end

/-! ## Whole runs -/

namespace Pair

variable {s s' : Pair} {p : Party}

/-- Both sides agree, seen from either. -/
def Inv (s : Pair) : Prop := ∀ p : Party,
  Half s.fresh (s.row p) (s.row p.peer) (s.queue p) (s.queue p.peer)

theorem peer_peer (p : Party) : p.peer.peer = p := by cases p <;> rfl

theorem peer_ne (p : Party) : p.peer ≠ p := by cases p <;> nofun

theorem Inv.agree (hs : s.Inv) (p : Party) :
    Agree s.fresh (s.row p) (s.row p.peer) (s.queue p) (s.queue p.peer) := by
  refine ⟨hs p, ?_⟩
  have h := hs p.peer
  rw [peer_peer] at h
  exact h

theorem Inv.of_agree
    (h : Agree s.fresh (s.row p) (s.row p.peer) (s.queue p) (s.queue p.peer)) : s.Inv := by
  intro q
  by_cases hq : q = p
  · rw [hq]
    exact h.1
  · have hpeer : q = p.peer := by cases p <;> cases q <;> first | rfl | exact absurd rfl hq
    rw [hpeer, peer_peer]
    exact h.2

theorem commit_agree {row : Option Relation} {events : List RelationshipEvent} {n : Nat}
    (h : Agree n row (s.row p.peer) (s.queue p ++ events) (s.queue p.peer)) :
    Inv { s.commit p row events with fresh := n } := by
  refine Inv.of_agree (p := p) ?_
  simp only [commit, if_true, if_neg (peer_ne p)]
  exact h

theorem init_inv : init.Inv := by
  intro p
  have hnone : Unrelated none := .inl rfl
  refine ⟨⟨?_, ?_, ?_, ?_, List.Pairwise.nil⟩, Own.unrelated hnone ?_, Facing.of_unrelated hnone ?_⟩
  all_goals exact fun _ h => absurd h List.not_mem_nil

theorem deliver_inv (hs : s.Inv) (h : s.step (.deliver p) = some s') : s'.Inv := by
  have ha := hs.agree p
  simp only [step] at h
  split at h
  · cases h
  · rename_i e rest hq
    rw [hq] at ha
    -- the receiving home commits against what is left of the queue
    have hcommit : ∀ {row : Option Relation} {events : List RelationshipEvent},
        Agree s.fresh row (s.row p.peer) (s.queue p ++ events) rest →
        Inv ((s.received p rest).commit p row events) := by
      intro row events hag
      refine commit_agree (s := s.received p rest) ?_
      simp only [received, if_true, if_neg (Ne.symm (peer_ne p))]
      exact hag
    have hform := ha.2.wire.form e List.mem_cons_self
    rcases hform with rfl | ⟨r, -, rfl⟩ | ⟨r, -, rfl⟩
    · -- a removal
      rcases hrow : s.row p with _ | (_ | x | x | _) <;> rw [hrow] at ha <;>
        simp only [RelationshipEvent.apply, hrow] at h <;> obtain rfl := Option.some.inj h <;>
        refine hcommit ?_ <;> rw [List.append_nil]
      · exact ha.remove_arrives (.inl rfl)
      · exact ha.remove_arrives (.inl rfl)
      · exact ha.remove_arrives (.inl rfl)
      · exact ha.remove_arrives (.inl rfl)
      · exact ha.remove_arrives (.inr rfl)
    · -- a request
      rcases ha.1.own.form with hrow | hrow | hrow | ⟨x, -, hrow⟩ | ⟨x, -, hrow⟩ <;>
        rw [hrow] at ha <;> simp only [RelationshipEvent.apply, hrow] at h <;>
        obtain rfl := Option.some.inj h <;> refine hcommit ?_
      · rw [List.append_nil]
        exact ha.request_arrives (Or.inl rfl)
      · exact ha.request_crosses
      · rw [List.append_nil]
        exact ha.request_blocked
      · rw [List.append_nil]
        exact ha.request_arrives (Or.inr ⟨x, rfl⟩)
      · exact ha.request_crosses
    · -- an acceptance
      by_cases hm : s.row p = outgoing r
      · simp only [RelationshipEvent.apply, Relation.acceptanceMatches, hm, if_true] at h
        obtain rfl := Option.some.inj h
        rw [hm] at ha
        refine hcommit ?_
        rw [List.append_nil]
        exact ha.accept_arrives
      · simp only [RelationshipEvent.apply, Relation.acceptanceMatches, hm, if_false] at h
        obtain rfl := Option.some.inj h
        refine hcommit ?_
        rw [List.append_nil]
        exact ha.accept_ignored hm

theorem no_request_of_any {l : List RelationshipEvent}
    (h : l.any RelationshipEvent.isRequest = false) (r : Nat) : req r ∉ l := by
  intro hr
  have htrue : l.any RelationshipEvent.isRequest = true := List.any_eq_true.mpr ⟨_, hr, rfl⟩
  rw [h] at htrue
  cases htrue

theorem step_inv (hs : s.Inv) {i : PairInput} (hg : s.NoCrossing i) (h : s.step i = some s') :
    s'.Inv := by
  cases i with
  | request p =>
      have ha := hs.agree p
      have hsame : Agree (s.fresh + 1) (s.row p) (s.row p.peer) (s.queue p) (s.queue p.peer) :=
        ⟨ha.1.mono, ha.2.mono⟩
      rcases ha.1.own.form with hrow | hrow | hrow | ⟨x, -, hrow⟩ | ⟨x, -, hrow⟩ <;>
        simp only [step, Relation.request, hrow] at h <;> obtain rfl := Option.some.inj h
      · rw [hrow] at ha
        exact commit_agree (ha.request (hg hrow))
      · rw [hrow] at hsame
        exact commit_agree (by rw [List.append_nil]; exact hsame)
      · exact hs
      · rw [hrow] at ha
        exact commit_agree ⟨ha.accept.1.mono, ha.accept.2.mono⟩
      · rw [hrow] at hsame
        exact commit_agree (by rw [List.append_nil]; exact hsame)
  | accept p =>
      have ha := hs.agree p
      rcases ha.1.own.form with hrow | hrow | hrow | ⟨x, -, hrow⟩ | ⟨x, -, hrow⟩ <;>
        simp only [step, Relation.accept, hrow] at h <;> obtain rfl := Option.some.inj h
      · exact hs
      · exact hs
      · exact hs
      · rw [hrow] at ha
        exact commit_agree ha.accept
      · exact hs
  | remove p =>
      obtain rfl := Option.some.inj h
      refine commit_agree ((hs.agree p).withdraw ?_ (no_request_of_any hg))
      unfold Relation.unlessBlocked
      split
      · rename_i hb
        exact Or.inr hb
      · exact Or.inl rfl
  | block p =>
      obtain rfl := Option.some.inj h
      exact commit_agree ((hs.agree p).withdraw (Or.inr rfl) (no_request_of_any hg))
  | unblock p =>
      have ha := hs.agree p
      obtain rfl := Option.some.inj h
      refine commit_agree ?_
      rw [List.append_nil]
      unfold Relation.unblocked
      split
      · rename_i hb
        rw [hb] at ha
        exact ha.unblock
      · exact ha
  | deliver p => exact deliver_inv hs h

/-- **No one-sided friendship**, as long as removals and requests do not
cross: whenever nothing is in flight, both rows are `friend` or neither. -/
theorem quiescent_agreement {is : List PairInput} (hrun : Exec step NoCrossing init is s)
    (hq : s.Quiescent) : s.row .a = some .friend ↔ s.row .b = some .friend := by
  have hinv : s.Inv := hrun.invariant (fun _ _ _ hs hg h => step_inv hs hg h) init_inv
  have hside : ∀ p : Party, s.row p = some .friend → s.row p.peer = some .friend := by
    intro p hp
    rcases (hinv p).facing.friendBacked hp with hrem | hf | ⟨r, -, hacc⟩
    · rw [hq] at hrem
      cases hrem
    · exact hf
    · rw [hq] at hacc
      cases hacc
  exact ⟨hside .a, hside .b⟩

/-- A request that is accepted, with both queues drained. -/
theorem quiescent_agreement_sample :
    ∃ s, Exec step NoCrossing init [.request .a, .deliver .b, .accept .b, .deliver .a] s
      ∧ s.Quiescent ∧ s.row .a = some .friend
      ∧ (s.row .a = some .friend ↔ s.row .b = some .friend) := by
  have hsome : (runFrom step NoCrossing init
      [.request .a, .deliver .b, .accept .b, .deliver .a]).map
        (fun s => (s.row .a, s.queue .a, s.queue .b)) = some (some .friend, [], []) := by
    decide +kernel
  obtain ⟨s, hrun, hs⟩ := Option.map_eq_some_iff.mp hsome
  obtain ⟨hrow, hqs⟩ := Prod.mk.inj hs
  obtain ⟨hqa, hqb⟩ := Prod.mk.inj hqs
  have hq : s.Quiescent := by
    intro p
    cases p
    · exact hqa
    · exact hqb
  have hexec := Exec.of_runFrom hrun
  exact ⟨s, hexec, hq, hrow, quiescent_agreement hexec hq⟩

/-- A removal crosses a request: it erases the requester's row, while the
request still arrives behind it and is accepted. -/
theorem crossing_removal_splits_friendship :
    ∃ s, Exec step Always init
        [.request .a, .remove .b, .deliver .a, .deliver .b, .accept .b, .deliver .a] s
      ∧ s.Quiescent ∧ s.row .a = none ∧ s.row .b = some .friend := by
  have hsome : (runFrom step Always init
      [.request .a, .remove .b, .deliver .a, .deliver .b, .accept .b, .deliver .a]).map
        (fun s => (s.row .a, s.row .b, s.queue .a, s.queue .b))
      = some (none, some .friend, [], []) := by decide +kernel
  obtain ⟨s, hrun, hs⟩ := Option.map_eq_some_iff.mp hsome
  obtain ⟨hra, hs⟩ := Prod.mk.inj hs
  obtain ⟨hrb, hqs⟩ := Prod.mk.inj hs
  obtain ⟨hqa, hqb⟩ := Prod.mk.inj hqs
  refine ⟨s, Exec.of_runFrom hrun, ?_, hra, hrb⟩
  intro p
  cases p
  · exact hqa
  · exact hqb

end Pair

end Kaede
