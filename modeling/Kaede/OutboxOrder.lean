import Kaede.OutboxDrain

/-!
# The order of a destination's stream

Without a block a batch is a prefix of the live rows, so when it is sent
every row before one of its rows is in it or was settled before. The answer
is written row by row: it keeps the order as long as no accepted result
follows one that leaves its row in the stream, and `outbox_prefix_ordered`
carries this over whole runs.

A peer that rejects a durable event and accepts the next one breaks it.
-/

namespace Kaede

namespace Outbox

def Row.terminal (r : Row) : Bool := r.status ∈ [.delivered, .failed, .expired]

/-- What a row keeps from its creation on. -/
def Row.ref (r : Row) : Nat × String × String := (r.id, r.eventOriginDomain, r.eventId)

theorem Row.active_or_terminal (r : Row) : r.active ∨ r.terminal := by
  unfold Row.active Row.terminal
  cases r.status <;> decide

def ids (s : Outbox) : List Nat := s.rows.map Row.id

def terminalIds (s : Outbox) : List Nat := (s.rows.filter Row.terminal).map Row.id

/-- The rows of the batch in flight that the peer's answer accepts. -/
def acceptedIds (s : Outbox) (response : Response) : List Nat :=
  match s.flight, response with
  | some flight, .results results =>
      (flight.rows.filter fun r => (results r.eventId).any PeerResult.isAccepted).map Row.id
  | _, _ => []

/-- An outbox and what happened in it: the rows that were delivered, failed
or expired at some time, and those that the peer accepted. -/
structure Stream where
  outbox : Outbox
  settled : List Nat := []
  accepted : List Nat := []

namespace Stream

def start (localDomain : String) : Stream := { outbox := { localDomain } }

def advance (t : Stream) (s : Outbox) : Stream :=
  { t with
    outbox := s
    settled := t.settled ++ s.terminalIds }

/-- What happens at a destination that is not blocked. -/
inductive Input where
  | queueEvent (e : Event) (requeueExisting : Bool) (now : Int)
  | startDrain (now : Int)
  | finishDrain (response : Response) (jitter : Nat → Nat)
  | expireStaleOutbox (now : Int)

def step (t : Stream) : Input → Option Stream
  | .queueEvent e requeueExisting now =>
      (t.outbox.queueEvent none e requeueExisting now).map t.advance
  | .startDrain now => (t.outbox.startDrain none now).map t.advance
  | .finishDrain response jitter =>
      (t.outbox.finishDrain response jitter).map fun s =>
        { t.advance s with accepted := t.accepted ++ t.outbox.acceptedIds response }
  | .expireStaleOutbox now => some (t.advance (t.outbox.expireStaleOutbox now))

/-- No result that accepts its row follows one that leaves its row in the
stream. -/
def AnsweredInOrder (t : Stream) : Input → Prop
  | .finishDrain (.results results) _ =>
      ∀ flight ∈ t.outbox.flight, ∀ a ∈ flight.rows, ∀ b ∈ flight.rows, a.id < b.id →
        (results b.eventId).any PeerResult.isAccepted →
          t.outbox.keepsRetrying a flight.now (results a.eventId) = false
  | _ => True

instance (t : Stream) (i : Input) : Decidable (t.AnsweredInOrder i) :=
  match i with
  | .finishDrain (.results results) _ =>
      inferInstanceAs (Decidable (∀ flight ∈ t.outbox.flight, ∀ a ∈ flight.rows,
        ∀ b ∈ flight.rows, a.id < b.id → (results b.eventId).any PeerResult.isAccepted →
          t.outbox.keepsRetrying a flight.now (results a.eventId) = false))
  | .finishDrain (.failure _ _) _ => .isTrue trivial
  | .queueEvent _ _ _ => .isTrue trivial
  | .startDrain _ => .isTrue trivial
  | .expireStaleOutbox _ => .isTrue trivial

end Stream

/-! ## Rows and events -/

/-- Row ids are handed out once, in order, and every row has its event. -/
structure WellFormed (s : Outbox) : Prop where
  ids : s.ids.Nodup
  fresh : ∀ i ∈ s.ids, i < s.nextId
  events : ∀ r ∈ s.rows, (s.event? r).isSome

section

variable {s s' : Outbox} {row a b : Row} {now : Int}

theorem ids_eq_refs (s : Outbox) : s.ids = (s.rows.map Row.ref).map Prod.fst := by
  rw [ids, List.map_map]
  rfl

theorem mem_ids_of_ref (h : row.ref ∈ s.rows.map Row.ref) : row.id ∈ s.ids := by
  rw [ids_eq_refs]
  exact List.mem_map_of_mem h

theorem event?_congr (hevents : s'.events = s.events) (href : a.ref = b.ref) :
    s'.event? a = s.event? b := by
  obtain ⟨-, hdomain, hid⟩ : a.id = b.id ∧ a.eventOriginDomain = b.eventOriginDomain ∧
      a.eventId = b.eventId := by simpa [Row.ref] using href
  rw [event?, event?, hevents, hdomain, hid]

theorem WellFormed.of_refs (h : s.WellFormed) (hrefs : s'.rows.map Row.ref = s.rows.map Row.ref)
    (hnext : s'.nextId = s.nextId) (hevents : s'.events = s.events) : s'.WellFormed := by
  have hids : s'.ids = s.ids := by rw [ids_eq_refs, ids_eq_refs, hrefs]
  refine ⟨hids ▸ h.ids, ?_, fun r hr => ?_⟩
  · rw [hids, hnext]
    exact h.fresh
  · have href : r.ref ∈ s.rows.map Row.ref := hrefs ▸ List.mem_map_of_mem hr
    obtain ⟨r₀, hr₀, heq⟩ := List.mem_map.mp href
    rw [event?_congr hevents heq.symm]
    exact h.events r₀ hr₀

theorem setRow_refs (hids : s.ids.Nodup) (hrow : row.ref ∈ s.rows.map Row.ref) :
    (s.setRow row).rows.map Row.ref = s.rows.map Row.ref := by
  obtain ⟨r₀, hr₀, heq⟩ := List.mem_map.mp hrow
  rw [setRow, updateBy, List.map_map]
  refine List.map_congr_left fun r hr => ?_
  by_cases hid : r.id = row.id
  · have hr₀id : r₀.id = row.id := congrArg Prod.fst heq
    obtain rfl : r = r₀ := List.inj_on_of_nodup_map hids hr hr₀ (hid.trans hr₀id.symm)
    simp [hid, heq]
  · simp [hid]

theorem setRows_refs {rows : List Row} (hids : s.ids.Nodup)
    (hrows : ∀ row ∈ rows, row.ref ∈ s.rows.map Row.ref) :
    (s.setRows rows).rows.map Row.ref = s.rows.map Row.ref := by
  induction rows generalizing s with
  | nil => rfl
  | cons row rest ih =>
      obtain ⟨hrow, hrest⟩ := List.forall_mem_cons.mp hrows
      have hset := setRow_refs hids hrow
      have hids' : (s.setRow row).ids.Nodup := by rwa [ids_eq_refs, hset, ← ids_eq_refs]
      exact (ih hids' (by rwa [hset])).trans hset

/-- After several writes a row is one of those written, or has another id. -/
theorem mem_setRows {rows : List Row} {x : Row} (hx : x ∈ (s.setRows rows).rows) :
    x ∈ rows ∨ x ∈ s.rows ∧ x.id ∉ rows.map Row.id := by
  induction rows generalizing s with
  | nil => exact .inr ⟨hx, List.not_mem_nil⟩
  | cons row rest ih =>
      rcases ih hx with hrest | ⟨hx, hnew⟩
      · exact .inl (List.mem_cons_of_mem _ hrest)
      · rcases mem_updateBy hx with ⟨r, -, -, rfl⟩ | ⟨hx, hne⟩
        · exact .inl List.mem_cons_self
        · refine .inr ⟨hx, ?_⟩
          rw [List.map_cons, List.mem_cons]
          exact fun h => h.elim hne hnew

theorem setRows_events (s : Outbox) (rows : List Row) :
    (s.setRows rows).events = s.events ∧ (s.setRows rows).nextId = s.nextId := by
  induction rows generalizing s with
  | nil => exact ⟨rfl, rfl⟩
  | cons row rest ih => exact ih (s.setRow row)

/-! ## Batches without a block -/

theorem permittedRows_none : s.permittedRows none now = s.dueRows now := by
  rw [permittedRows]
  exact List.filter_eq_self.mpr fun _ _ => rfl

theorem dueRows_isPrefix : s.dueRows now <+: s.activeRows :=
  keepWhile_isPrefix.trans (keepWhile_isPrefix.trans ⟨_, List.take_append_drop _ _⟩)

theorem batch_isPrefix (h : s.WellFormed) : s.batch none now <+: s.activeRows := by
  have hrows : (s.permittedRows none now).filter (fun r => (s.event? r).isSome) =
      s.dueRows now := by
    rw [permittedRows_none]
    refine List.filter_eq_self.mpr fun r hr => ?_
    exact h.events r (mem_activeRows.mp (dueRows_isPrefix.subset hr)).1
  rw [batch, hrows]
  exact keepWhile_isPrefix.trans dueRows_isPrefix

/-- A prefix of the live rows has with a row all live rows before it. -/
theorem mem_of_isPrefix {rows : List Row} (hids : s.ids.Nodup) (hhead : rows <+: s.activeRows)
    (hb : b ∈ rows) (ha : a ∈ s.activeRows) (hlt : a.id < b.id) : a ∈ rows := by
  obtain ⟨rest, hrest⟩ := hhead
  rw [← hrest, List.mem_append] at ha
  refine ha.resolve_right fun ha => ?_
  have hsorted := sorted_activeRows hids
  rw [← hrest, List.pairwise_append] at hsorted
  exact Nat.lt_asymm hlt (hsorted.2.2 b hb a ha)

/-- What is before a row of the batch is in the batch or settled. -/
def InOrder (s : Outbox) (settled : List Nat) (flight : Flight) : Prop :=
  ∀ b ∈ flight.rows, b.ref ∈ s.rows.map Row.ref ∧
    ∀ i ∈ s.ids, i < b.id → i ∈ flight.rows.map Row.id ∨ i ∈ settled

theorem batch_inOrder {settled : List Nat} (h : s.WellFormed)
    (hsettled : ∀ r ∈ s.rows, r.terminal → r.id ∈ settled) :
    s.InOrder settled { now, rows := s.batch none now } := by
  have hhead : s.batch none now <+: s.activeRows := batch_isPrefix h
  intro b hb
  refine ⟨List.mem_map_of_mem (mem_activeRows.mp (hhead.subset hb)).1, fun i hi hlt => ?_⟩
  obtain ⟨a, ha, rfl⟩ := List.mem_map.mp hi
  rcases a.active_or_terminal with hactive | hterminal
  · have hmem : a ∈ s.batch none now :=
      mem_of_isPrefix h.ids hhead hb (mem_activeRows.mpr ⟨ha, hactive⟩) hlt
    exact .inl (List.mem_map_of_mem hmem)
  · exact .inr (hsettled a ha hterminal)

/-! ## What a step does -/

theorem startDrain_cases (h : s.startDrain none now = some s') :
    s' = s ∨ s' = { s with flight := some { now, rows := s.batch none now } } ∨
      ∃ row ∈ s.rows, ∃ error,
        s' = s.setRow { row with status := .failed, lastError := error } := by
  unfold startDrain at h
  split at h
  · cases h
  · split at h
    · exact .inl (Option.some.inj h).symm
    · rename_i oversized rest hrows _
      refine .inr (.inr ⟨oversized, ?_, _, (Option.some.inj h).symm⟩)
      rw [permittedRows_none] at hrows
      have hmem : oversized ∈ s.dueRows now := hrows ▸ List.mem_cons_self
      exact (mem_activeRows.mp (dueRows_isPrefix.subset hmem)).1
    · exact .inr (.inl (Option.some.inj h).symm)

/-- A row is appended for an event that is stored. -/
structure Appends (s s' : Outbox) (row : Row) : Prop where
  id : row.id = s.nextId
  rows : s'.rows = s.rows ++ [row]
  nextId : s'.nextId = s.nextId + 1
  flight : s'.flight = s.flight
  events : ∀ r, (s.event? r).isSome → (s'.event? r).isSome
  event : (s'.event? row).isSome

theorem Appends.ids_eq (h : s.Appends s' row) : s'.ids = s.ids ++ [s.nextId] := by
  rw [Outbox.ids, h.rows, List.map_append, List.map_singleton, h.id, Outbox.ids]

theorem WellFormed.append (h : s.WellFormed) (happend : s.Appends s' row) : s'.WellFormed := by
  refine ⟨?_, ?_, ?_⟩
  · rw [happend.ids_eq]
    refine h.ids.append (List.nodup_singleton _) fun i hi hnew => ?_
    exact Nat.lt_irrefl _ (List.mem_singleton.mp hnew ▸ h.fresh i hi)
  · rw [happend.ids_eq, happend.nextId]
    intro i hi
    rcases List.mem_append.mp hi with hi | hi
    · exact Nat.lt_succ_of_lt (h.fresh i hi)
    · exact List.mem_singleton.mp hi ▸ Nat.lt_succ_self _
  · rw [happend.rows]
    intro r hr
    rcases List.mem_append.mp hr with hr | hr
    · exact happend.events r (h.events r hr)
    · exact List.mem_singleton.mp hr ▸ happend.event

theorem queueEvent_cases {e : Event} {requeueExisting : Bool}
    (h : s.queueEvent none e requeueExisting now = some s') :
    s' = s ∨
      (∃ row ∈ s.rows, s' = s.setRow { armed row none now with attempts := 0 }) ∨
      ∃ row, s.Appends s' row := by
  unfold queueEvent at h
  split at h
  · cases h
  · split at h
    · rename_i row hrow
      split at h
      · exact .inr (.inl ⟨row, List.mem_of_find?_eq_some hrow, (Option.some.inj h).symm⟩)
      · exact .inl (Option.some.inj h).symm
    · split at h
      · cases h
      · dsimp only at h
        split at h
        · cases h
        · obtain rfl := Option.some.inj h
          refine .inr (.inr ⟨_, rfl, rfl, rfl, rfl, fun r hr => ?_, ?_⟩)
          · unfold event? at hr ⊢
            dsimp only
            split
            · exact hr
            · rw [List.find?_append, Option.isSome_or, hr, Bool.true_or]
          · unfold event?
            dsimp only [armed, policyHeld, Option.filter_none]
            split
            · assumption
            · rw [List.find?_append, Option.isSome_or]
              simp

theorem afterResult_ref (r : Row) (result : Option PeerResult) (jitter : Nat) :
    (s.afterResult r now result jitter).ref = r.ref := by
  unfold afterResult
  cases result with
  | none => rfl
  | some result =>
      dsimp only
      split
      · rfl
      · rfl
      · split_ifs <;> rfl
      · rfl

/-- The answers that do not keep a row in the stream settle it. -/
theorem afterResult_terminal {r : Row} {result : Option PeerResult} {jitter : Nat}
    (h : s.keepsRetrying r now result = false) :
    (s.afterResult r now result jitter).terminal := by
  cases result with
  | none => cases h
  | some result =>
      unfold keepsRetrying at h
      unfold afterResult
      dsimp only at h ⊢
      split at h
      · rfl
      · rfl
      · cases he : s.event? r with
        | none => rfl
        | some e =>
            rw [he, Option.any_some, Bool.or_eq_false_iff] at h
            simp only [Option.any_some, h.1, h.2]
            rfl
      · cases h

theorem mem_acceptedIds {response : Response} {flight : Flight} {i : Nat}
    (hflight : s.flight = some flight) (h : i ∈ s.acceptedIds response) :
    ∃ results, response = .results results ∧ ∃ b ∈ flight.rows, b.id = i ∧
      (results b.eventId).any PeerResult.isAccepted := by
  unfold acceptedIds at h
  rw [hflight] at h
  cases response with
  | failure error retryAfter => cases h
  | results results =>
      obtain ⟨b, hb, hid⟩ := List.mem_map.mp h
      obtain ⟨hb, haccepted⟩ := List.mem_filter.mp hb
      exact ⟨results, rfl, b, hb, hid, haccepted⟩

theorem finishDrain_cases {response : Response} {jitter : Nat → Nat}
    (h : s.finishDrain response jitter = some s') :
    ∃ flight, s.flight = some flight ∧ ∃ answer : Row → Row, (∀ r, (answer r).ref = r.ref) ∧
      (∀ results, response = .results results → answer = fun r =>
        s.afterResult r flight.now (results r.eventId) (jitter r.id)) ∧
      s' = { s.setRows (flight.rows.map answer) with flight := none } := by
  unfold finishDrain at h
  split at h
  · cases h
  · rename_i flight hflight
    refine ⟨flight, hflight, _, ?_, ?_, (Option.some.inj h).symm⟩
    · intro r
      cases response with
      | failure error retryAfter => rfl
      | results results => exact afterResult_ref r _ _
    · rintro results rfl
      rfl

end

namespace Stream

/-- The order that every step keeps. -/
structure Ordered (t : Stream) : Prop where
  wellFormed : t.outbox.WellFormed
  settled : ∀ r ∈ t.outbox.rows, r.terminal → r.id ∈ t.settled
  accepted : ∀ b ∈ t.accepted, b < t.outbox.nextId ∧ ∀ i ∈ t.outbox.ids, i < b → i ∈ t.settled
  flight : ∀ flight, t.outbox.flight = some flight → t.outbox.InOrder t.settled flight

theorem ordered_start (localDomain : String) : (start localDomain).Ordered where
  wellFormed := ⟨List.nodup_nil, nofun, nofun⟩
  settled := nofun
  accepted := nofun
  flight := nofun

section

variable {t t' : Stream} {s' : Outbox}

theorem terminal_mem_advance : ∀ r ∈ s'.rows, r.terminal → r.id ∈ (t.advance s').settled :=
  fun _ hr hterminal => List.mem_append_right _
    (List.mem_map_of_mem (List.mem_filter.mpr ⟨hr, hterminal⟩))

/-- A step that only rewrites rows keeps the order, whatever it sends. -/
theorem Ordered.advance (h : t.Ordered) (hrefs : s'.rows.map Row.ref = t.outbox.rows.map Row.ref)
    (hnext : s'.nextId = t.outbox.nextId) (hevents : s'.events = t.outbox.events)
    (hflight : ∀ flight, s'.flight = some flight → t.outbox.InOrder t.settled flight) :
    (t.advance s').Ordered := by
  have hids : s'.ids = t.outbox.ids := by rw [ids_eq_refs, ids_eq_refs, hrefs]
  refine ⟨h.wellFormed.of_refs hrefs hnext hevents, terminal_mem_advance, ?_, ?_⟩
  · intro b hb
    obtain ⟨hlt, hbefore⟩ := h.accepted b hb
    refine ⟨hnext ▸ hlt, fun i hi hib => List.mem_append_left _ (hbefore i (hids ▸ hi) hib)⟩
  · intro flight hs b hb
    obtain ⟨href, hbefore⟩ := hflight flight hs b hb
    refine ⟨hrefs ▸ href, fun i hi hib => ?_⟩
    exact (hbefore i (hids ▸ hi) hib).imp_right (List.mem_append_left _)

theorem Ordered.advance_setRow (h : t.Ordered) {row row' : Row} (hrow : row ∈ t.outbox.rows)
    (href : row.ref = row'.ref) : (t.advance (t.outbox.setRow row')).Ordered := by
  have hmem : row'.ref ∈ t.outbox.rows.map Row.ref := href ▸ List.mem_map_of_mem hrow
  exact h.advance (setRow_refs h.wellFormed.ids hmem) rfl rfl h.flight

theorem Ordered.queueEvent (h : t.Ordered) {e : Event} {requeueExisting : Bool} {now : Int}
    (hs : t.outbox.queueEvent none e requeueExisting now = some s') : (t.advance s').Ordered := by
  rcases queueEvent_cases hs with rfl | ⟨row, hrow, rfl⟩ | ⟨row, happend⟩
  · exact h.advance rfl rfl rfl h.flight
  · exact h.advance_setRow hrow rfl
  · -- the new row is behind all that was accepted or sent before
    have hold {i b : Nat} (hi : i ∈ s'.ids) (hb : b < t.outbox.nextId) (hib : i < b) :
        i ∈ t.outbox.ids := by
      rw [happend.ids_eq, List.mem_append, List.mem_singleton] at hi
      exact hi.resolve_right (Nat.ne_of_lt (Nat.lt_trans hib hb))
    refine ⟨h.wellFormed.append happend, terminal_mem_advance, ?_, ?_⟩
    · intro b hb
      obtain ⟨hlt, hbefore⟩ := h.accepted b hb
      refine ⟨Nat.lt_of_lt_of_eq (Nat.lt_succ_of_lt hlt) happend.nextId.symm, fun i hi hib => ?_⟩
      exact List.mem_append_left _ (hbefore i (hold hi hlt hib) hib)
    · intro flight hflight b hb
      obtain ⟨href, hbefore⟩ := h.flight flight (happend.flight ▸ hflight) b hb
      have hlt := h.wellFormed.fresh b.id (mem_ids_of_ref href)
      refine ⟨?_, fun i hi hib => ?_⟩
      · show b.ref ∈ s'.rows.map Row.ref
        rw [happend.rows, List.map_append]
        exact List.mem_append_left _ href
      · exact (hbefore i (hold hi hlt hib) hib).imp_right (List.mem_append_left _)

theorem Ordered.startDrain (h : t.Ordered) {now : Int}
    (hs : t.outbox.startDrain none now = some s') : (t.advance s').Ordered := by
  rcases startDrain_cases hs with rfl | rfl | ⟨row, hrow, error, rfl⟩
  · exact h.advance rfl rfl rfl h.flight
  · refine h.advance rfl rfl rfl fun flight hflight => ?_
    obtain rfl := Option.some.inj hflight
    exact batch_inOrder h.wellFormed h.settled
  · exact h.advance_setRow hrow rfl

theorem Ordered.finishDrain (h : t.Ordered) {response : Response} {jitter : Nat → Nat}
    (hguard : t.AnsweredInOrder (.finishDrain response jitter))
    (hs : t.outbox.finishDrain response jitter = some s') :
    Ordered { t.advance s' with accepted := t.accepted ++ t.outbox.acceptedIds response } := by
  obtain ⟨flight, hflight, answer, href, hanswer, rfl⟩ := finishDrain_cases hs
  have hanswerid (r : Row) : (answer r).id = r.id := congrArg Prod.fst (href r)
  have hrefs : (t.outbox.setRows (flight.rows.map answer)).rows.map Row.ref =
      t.outbox.rows.map Row.ref := by
    refine setRows_refs h.wellFormed.ids fun row hrow => ?_
    obtain ⟨r, hr, rfl⟩ := List.mem_map.mp hrow
    rw [href]
    exact (h.flight flight hflight r hr).1
  obtain ⟨hevents, hnext⟩ := setRows_events t.outbox (flight.rows.map answer)
  have hadvance : (t.advance { t.outbox.setRows (flight.rows.map answer) with
      flight := none }).Ordered := h.advance hrefs hnext hevents nofun
  refine ⟨hadvance.wellFormed, hadvance.settled, fun b hb => ?_, nofun⟩
  rcases List.mem_append.mp hb with hb | hb
  · exact hadvance.accepted b hb
  · obtain ⟨results, rfl, b, hbatch, rfl, haccepted⟩ := mem_acceptedIds hflight hb
    obtain ⟨hbref, hbefore⟩ := h.flight flight hflight b hbatch
    have hids : (t.outbox.setRows (flight.rows.map answer)).ids = t.outbox.ids := by
      rw [ids_eq_refs, ids_eq_refs, hrefs]
    refine ⟨hadvance.wellFormed.fresh _ (hids ▸ mem_ids_of_ref hbref), fun i hi hib => ?_⟩
    rcases hbefore i (hids ▸ hi) hib with hsent | hsettled
    · -- the row was in the batch: its answer took it out of the stream
      obtain ⟨x, hx, rfl⟩ := List.mem_map.mp hi
      have hwritten : x ∈ flight.rows.map answer := by
        refine (mem_setRows hx).resolve_right fun hother => hother.2 ?_
        obtain ⟨a, ha, haid⟩ := List.mem_map.mp hsent
        rw [← haid, ← hanswerid a]
        exact List.mem_map_of_mem (List.mem_map_of_mem ha)
      obtain ⟨a, ha, rfl⟩ := List.mem_map.mp hwritten
      have hanswered := hguard flight hflight a ha b hbatch (hanswerid a ▸ hib) haccepted
      refine hadvance.settled _ hx ?_
      rw [hanswer results rfl]
      exact afterResult_terminal hanswered
    · exact List.mem_append_left _ hsettled

theorem Ordered.expireStaleOutbox (h : t.Ordered) (now : Int) :
    (t.advance (t.outbox.expireStaleOutbox now)).Ordered := by
  refine h.advance ?_ rfl rfl h.flight
  rw [Outbox.expireStaleOutbox, List.map_map]
  refine List.map_congr_left fun r _ => ?_
  dsimp only [Function.comp_apply]
  split
  · rfl
  · rfl

theorem Ordered.step {i : Input} (h : t.Ordered) (hguard : t.AnsweredInOrder i)
    (hs : t.step i = some t') : t'.Ordered := by
  cases i with
  | queueEvent e requeueExisting now =>
      obtain ⟨s', hs', rfl⟩ := Option.map_eq_some_iff.mp hs
      exact h.queueEvent hs'
  | startDrain now =>
      obtain ⟨s', hs', rfl⟩ := Option.map_eq_some_iff.mp hs
      exact h.startDrain hs'
  | finishDrain response jitter =>
      obtain ⟨s', hs', rfl⟩ := Option.map_eq_some_iff.mp hs
      exact h.finishDrain hguard hs'
  | expireStaleOutbox now =>
      obtain rfl := Option.some.inj hs
      exact h.expireStaleOutbox now

/-- In every run whose answers keep the order, a row that the peer accepted
has only settled rows before it. -/
theorem outbox_prefix_ordered {localDomain : String} {is : List Input} {b : Nat} {a : Row}
    (hrun : Exec Stream.step AnsweredInOrder (start localDomain) is t) (hb : b ∈ t.accepted)
    (ha : a ∈ t.outbox.rows) (hlt : a.id < b) : a.id ∈ t.settled := by
  have hordered : t.Ordered := hrun.invariant (fun _ _ _ h hguard hs => h.step hguard hs)
    (ordered_start localDomain)
  exact (hordered.accepted b hb).2 a.id (List.mem_map_of_mem ha) hlt

end

/-! ## Two runs -/

/-- `e2ee.room-policy.changed` is durable: a rejection is retried. -/
def policyChange : Event :=
  { originDomain := "a.example", eventId := "e1", eventType := "e2ee.room-policy.changed"
    envelopeBytes := 500 }

/-- A policy change and a direct message are sent in one batch. -/
def twoSent (answer : String → Option PeerResult) : List Input :=
  [.queueEvent policyChange false 0, .queueEvent dmMessage false 1, .startDrain 2,
    .finishDrain (.results answer) fun _ => 1000]

theorem both_accepted_settled :
    ∃ t, Exec Stream.step AnsweredInOrder (start "a.example")
        (twoSent fun _ => some { status := .accepted }) t ∧
      2 ∈ t.accepted ∧ ∃ a ∈ t.outbox.rows, a.id < 2 ∧ a.id ∈ t.settled := by
  have hsome : (runFrom Stream.step AnsweredInOrder (start "a.example")
      (twoSent fun _ => some { status := .accepted })).any (fun t =>
        2 ∈ t.accepted ∧ ∃ a ∈ t.outbox.rows, a.id < 2) = true := by decide +kernel
  obtain ⟨t, hrun, ht⟩ := (Option.any_eq_true _ _).mp hsome
  obtain ⟨hb, a, ha, hlt⟩ := of_decide_eq_true ht
  have hexec := Exec.of_runFrom hrun
  exact ⟨t, hexec, hb, a, ha, hlt, outbox_prefix_ordered hexec hb ha hlt⟩

/-- The peer rejects the first event and accepts the second: the first is
retried behind it. -/
theorem rejected_durable_overtaken :
    ∃ t, Exec Stream.step Always (start "a.example")
        (twoSent fun id =>
          some { status := if id = "e1" then .rejected else .accepted }) t ∧
      2 ∈ t.accepted ∧ ∃ a ∈ t.outbox.rows, a.id < 2 ∧ a.id ∉ t.settled := by
  have hsome : (runFrom Stream.step Always (start "a.example")
      (twoSent fun id => some { status := if id = "e1" then .rejected else .accepted })).any
        (fun t => 2 ∈ t.accepted ∧ ∃ a ∈ t.outbox.rows, a.id < 2 ∧ a.id ∉ t.settled) = true := by
    decide +kernel
  obtain ⟨t, hrun, ht⟩ := (Option.any_eq_true _ _).mp hsome
  exact ⟨t, Exec.of_runFrom hrun, of_decide_eq_true ht⟩

end Stream

end Outbox

end Kaede
