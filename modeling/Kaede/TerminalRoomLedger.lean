import Kaede.TerminalRoom

/-!
# No destination is forgotten

A destination of a deletion gets a row, and a row goes only when all rows
of the room are acknowledged (`step_fate`). In between, a row that is not
acknowledged names an event that is kept and that carries the key of the
last queueing or rotation (`Ledger`).

The one delicate step is the compaction of superseded events: a queueing
deletes the events its rows named before. It must not delete an event
another row still names, so the rows that are not acknowledged name
different events, and a token is new among the events that are kept
(`Queued`).
-/

namespace Kaede

namespace TerminalRoom

variable {s s' s₁ s₂ : TerminalRoom} {q q' : Queueing} {req : DeletionRequest} {key : String}
  {rotating : Bool} {generation : Nat} {acks : List String} {last : Option String}

/-- What holds of the rows between two transactions: `acks` are those that
have acknowledged, `last` is the key of the last queueing or rotation. -/
structure Ledger (s : TerminalRoom) (acks : List String) (last : Option String) : Prop where
  destinations : (s.rows.map TerminalRoomDeletion.destination).Nodup
  settled : ∀ row ∈ s.rows, row.acknowledgedAt ≠ none → row.destination ∈ acks
  retained : ∀ row ∈ s.rows, row.acknowledgedAt = none →
    ∃ e, s.event? row.eventId = some e ∧ e.keyId = row.keyId
  signed : ∀ row ∈ s.rows, row.acknowledgedAt = none → some row.keyId = last
  distinct : ∀ row ∈ s.rows, ∀ other ∈ s.rows, row.acknowledgedAt = none →
    other.acknowledgedAt = none → row.eventId = other.eventId → row = other
  delivered : ∀ o ∈ s.outbox, o.status = .delivered → o.destination ∈ acks

/-- What holds in the loop over the destinations: rows still to come may
have an old signature, and the superseded events are still there. -/
structure Queued (acks : List String) (key : String) (generation : Nat) (todo : List String)
    (q : Queueing) : Prop where
  destinations : (q.room.rows.map TerminalRoomDeletion.destination).Nodup
  settled : ∀ row ∈ q.room.rows, row.acknowledgedAt ≠ none → row.destination ∈ acks
  retained : ∀ row ∈ q.room.rows, row.acknowledgedAt = none →
    ∃ e, q.room.event? row.eventId = some e ∧ e.keyId = row.keyId
  signed : ∀ row ∈ q.room.rows, row.acknowledgedAt = none →
    row.keyId = key ∨ row.destination ∈ todo
  distinct : ∀ row ∈ q.room.rows, ∀ other ∈ q.room.rows, row.acknowledgedAt = none →
    other.acknowledgedAt = none → row.eventId = other.eventId → row = other
  old : ∀ id ∈ q.oldEventIds, q.room.event? id ≠ none
  current : ∀ row ∈ q.room.rows, row.acknowledgedAt = none → row.eventId ∉ q.oldEventIds
  bounded : ∀ row ∈ q.room.rows, row.generation ≤ generation
  delivered : ∀ o ∈ q.room.outbox, o.status = .delivered → o.destination ∈ acks

/-! ## Writes to the tables -/

theorem queueOutbox_frame (s : TerminalRoom) (destination eventId : String) :
    (s.queueOutbox destination eventId).rows = s.rows ∧
    (s.queueOutbox destination eventId).events = s.events ∧
    ∀ o ∈ (s.queueOutbox destination eventId).outbox, o.status = .delivered → o ∈ s.outbox := by
  unfold queueOutbox
  split
  · refine ⟨rfl, rfl, fun o ho hst => ?_⟩
    obtain ⟨o', ho', rfl⟩ := List.mem_map.mp ho
    split at hst
    · cases hst
    · rename_i hkeep
      rw [if_neg hkeep]
      exact ho'
  · refine ⟨rfl, rfl, fun o ho hst => ?_⟩
    rcases List.mem_append.mp ho with ho | ho
    · exact ho
    · rw [List.mem_singleton.mp ho] at hst
      cases hst

/-- A new event is found under its token, and the others as before. -/
theorem event?_append {s : TerminalRoom} {envelope : TerminalEnvelope} {id : String}
    (hnew : s.event? envelope.eventId = none) :
    lookupBy TerminalEnvelope.eventId id (s.events ++ [envelope])
      = if id = envelope.eventId then some envelope else s.event? id := by
  by_cases hid : id = envelope.eventId
  · subst hid
    rw [if_pos rfl, lookupBy, List.find?_append]
    have hnone : s.events.find? (fun e => e.eventId = envelope.eventId) = none := hnew
    simp [hnone]
  · rw [if_neg hid, lookupBy_append_of_ne (Ne.symm hid)]
    rfl

theorem signFor_eq_ok {destination : String} {envelope : TerminalEnvelope}
    (h : signFor s req key generation destination = .ok (s', envelope)) :
    s.event? envelope.eventId = none ∧ envelope.keyId = key ∧
      s' = { s with events := s.events ++ [envelope] } := by
  simp only [signFor, check_bind_eq_ok, ensure_eq_ok] at h
  obtain ⟨hnew, h⟩ := h
  obtain ⟨rfl, rfl⟩ := Prod.mk.inj (Except.ok.inj h)
  exact ⟨hnew, rfl, rfl⟩

theorem queueNew_eq_ok {destination : String}
    (h : queueNew q req key generation destination = .ok q') :
    ∃ envelope, q.room.event? envelope.eventId = none ∧ envelope.keyId = key ∧
      q'.oldEventIds = q.oldEventIds ∧
      q'.room.rows = q.room.rows ++ [req.newRow envelope generation destination] ∧
      q'.room.events = q.room.events ++ [envelope] ∧
      ∀ o ∈ q'.room.outbox, o.status = .delivered → o ∈ q.room.outbox := by
  obtain ⟨⟨s, envelope⟩, hsign, h⟩ := bind_eq_ok.mp h
  obtain ⟨hnew, hkey, rfl⟩ := signFor_eq_ok hsign
  obtain rfl := Except.ok.inj h
  obtain ⟨hrows, hevents, hsent⟩ := queueOutbox_frame
    { q.room with events := q.room.events ++ [envelope] } destination envelope.eventId
  refine ⟨envelope, hnew, hkey, rfl, ?_, hevents, hsent⟩
  rw [hrows]

/-- The two ways a row gets its event: the one it has, or a new one under a
token that no kept event has. -/
theorem queueAgain_eq_ok {row : TerminalRoomDeletion}
    (h : queueAgain q req key rotating generation row = .ok q') :
    ∃ envelope,
      (q.room.event? row.eventId = some envelope ∧ envelope.eventId = row.eventId ∧
          row.keyId = key ∧
          q'.room.events = q.room.events ∧ q'.oldEventIds = q.oldEventIds ∨
        q.room.event? envelope.eventId = none ∧ envelope.keyId = key ∧
          q'.room.events = q.room.events ++ [envelope] ∧
          q'.oldEventIds = if row.eventId ≠ envelope.eventId then row.eventId :: q.oldEventIds
            else q.oldEventIds) ∧
      q'.room.rows = updateBy TerminalRoomDeletion.destination row.destination
        (fun _ => row.requeued envelope generation req.now) q.room.rows ∧
      ∀ o ∈ q'.room.outbox, o.status = .delivered → o ∈ q.room.outbox := by
  obtain ⟨⟨s, envelope⟩, hevent, h⟩ := bind_eq_ok.mp h
  obtain rfl := Except.ok.inj h
  obtain ⟨hrows, hevents, hsent⟩ := queueOutbox_frame s row.destination envelope.eventId
  dsimp only at hevent ⊢
  split at hevent
  · rename_i e hreuse
    obtain ⟨rfl, rfl⟩ := Prod.mk.inj (Except.ok.inj hevent)
    unfold reusable at hreuse
    split at hreuse
    · rename_i hkey
      obtain ⟨hfound, -⟩ := Option.filter_eq_some_iff.mp hreuse
      have hid : e.eventId = row.eventId := key_of_lookupBy hfound
      refine ⟨e, .inl ⟨hfound, hid, hkey.1, hevents, ?_⟩, ?_, hsent⟩
      · rw [if_neg (not_not.mpr hid.symm)]
      · rw [hrows]
    · cases hreuse
  · obtain ⟨hnew, hkey, rfl⟩ := signFor_eq_ok hevent
    refine ⟨envelope, .inr ⟨hnew, hkey, hevents, rfl⟩, ?_, hsent⟩
    rw [hrows]

/-! ## The loop over the destinations -/

theorem Queued.queueNew {destination : String} {todo : List String}
    (hq : Queued acks key generation (destination :: todo) q)
    (hnone : q.room.row? destination = none)
    (h : queueNew q req key generation destination = .ok q') :
    Queued acks key generation todo q' := by
  obtain ⟨envelope, hnew, hkey, hold, hrows, hevents, hsent⟩ := queueNew_eq_ok h
  have hevent (id : String) : q'.room.event? id
      = if id = envelope.eventId then some envelope else q.room.event? id := by
    rw [event?, hevents]
    exact event?_append hnew
  have hfresh {row : TerminalRoomDeletion} (hrow : row ∈ q.room.rows)
      (hlive : row.acknowledgedAt = none) : row.eventId ≠ envelope.eventId := by
    intro heq
    obtain ⟨e, he, -⟩ := hq.retained row hrow hlive
    rw [heq, hnew] at he
    cases he
  have hother := lookupBy_eq_none hnone
  have hmem {row : TerminalRoomDeletion} (hrow : row ∈ q'.room.rows) :
      row ∈ q.room.rows ∨ row = req.newRow envelope generation destination := by
    rw [hrows, List.mem_append, List.mem_singleton] at hrow
    exact hrow
  constructor
  · rw [hrows, List.map_append, List.nodup_append]
    refine ⟨hq.destinations, List.nodup_singleton _, ?_⟩
    rintro d hd d' hd' rfl
    obtain ⟨row, hrow, rfl⟩ := List.mem_map.mp hd
    exact hother row hrow (List.mem_singleton.mp hd')
  · intro row hrow hsettled
    rcases hmem hrow with hrow | rfl
    · exact hq.settled row hrow hsettled
    · exact absurd rfl hsettled
  · intro row hrow hlive
    rw [hevent]
    rcases hmem hrow with hrow | rfl
    · rw [if_neg (hfresh hrow hlive)]
      exact hq.retained row hrow hlive
    · exact ⟨envelope, if_pos rfl, rfl⟩
  · intro row hrow hlive
    rcases hmem hrow with hrow | rfl
    · rcases hq.signed row hrow hlive with hsigned | htodo
      · exact .inl hsigned
      · exact .inr ((List.mem_cons.mp htodo).resolve_left (hother row hrow))
    · exact .inl hkey
  · intro row hrow other hother' hlive hlive' hid
    rcases hmem hrow with hrow | rfl <;> rcases hmem hother' with hother' | rfl
    · exact hq.distinct row hrow other hother' hlive hlive' hid
    · exact absurd hid (hfresh hrow hlive)
    · exact absurd hid.symm (hfresh hother' hlive')
    · rfl
  · intro id hid
    rw [hold] at hid
    rw [hevent]
    split
    · exact Option.some_ne_none _
    · exact hq.old id hid
  · intro row hrow hlive
    rw [hold]
    rcases hmem hrow with hrow | rfl
    · exact hq.current row hrow hlive
    · exact fun hid => hq.old _ hid hnew
  · intro row hrow
    rcases hmem hrow with hrow | rfl
    · exact hq.bounded row hrow
    · exact Nat.le_refl _
  · exact fun o ho hst => hq.delivered o (hsent o ho hst) hst

/-- What the two ways a row gets its event have in common. -/
structure EventSwap (key : String) (q q' : Queueing) (row : TerminalRoomDeletion)
    (envelope : TerminalEnvelope) : Prop where
  found : q'.room.event? envelope.eventId = some envelope
  signed : envelope.keyId = key
  stays : ∀ id, q.room.event? id ≠ none → q'.room.event? id = q.room.event? id
  apart : ∀ r ∈ q.room.rows, r.acknowledgedAt = none → r.destination ≠ row.destination →
    r.eventId ≠ envelope.eventId ∧ r.eventId ∉ q'.oldEventIds
  oldKept : ∀ id ∈ q'.oldEventIds, q.room.event? id ≠ none
  notOld : envelope.eventId ∉ q'.oldEventIds

section

variable {row : TerminalRoomDeletion} {envelope : TerminalEnvelope} {todo : List String}

/-- The event is used again. -/
theorem Queued.reuse (hq : Queued acks key generation todo q) (hrow : row ∈ q.room.rows)
    (hlive : row.acknowledgedAt = none) (hfound : q.room.event? row.eventId = some envelope)
    (hid : envelope.eventId = row.eventId) (hkey : row.keyId = key)
    (hevents : q'.room.events = q.room.events) (hold : q'.oldEventIds = q.oldEventIds) :
    EventSwap key q q' row envelope := by
  obtain ⟨e, he, hekey⟩ := hq.retained row hrow hlive
  obtain rfl : e = envelope := Option.some.inj (he.symm.trans hfound)
  have hsame (id : String) : q'.room.event? id = q.room.event? id := by
    rw [event?, event?, hevents]
  refine ⟨by rw [hsame, hid]; exact hfound, hekey.trans hkey, fun id _ => hsame id, ?_,
    hold ▸ hq.old, ?_⟩
  · intro r hr hl hne
    rw [hold]
    refine ⟨fun heq => ?_, hq.current r hr hl⟩
    exact hne (congrArg _ (hq.distinct r hr row hrow hl hlive (heq.trans hid)))
  · rw [hold, hid]
    exact hq.current row hrow hlive

/-- The row names a new event, and the one it named is superseded. -/
theorem Queued.resign (hq : Queued acks key generation todo q) (hrow : row ∈ q.room.rows)
    (hlive : row.acknowledgedAt = none) (hnew : q.room.event? envelope.eventId = none)
    (hkey : envelope.keyId = key) (hevents : q'.room.events = q.room.events ++ [envelope])
    (hold : q'.oldEventIds = if row.eventId ≠ envelope.eventId then row.eventId :: q.oldEventIds
      else q.oldEventIds) :
    EventSwap key q q' row envelope := by
  have hevent (id : String) : q'.room.event? id
      = if id = envelope.eventId then some envelope else q.room.event? id := by
    rw [event?, hevents]
    exact event?_append hnew
  have hfresh {r : TerminalRoomDeletion} (hr : r ∈ q.room.rows) (hl : r.acknowledgedAt = none) :
      r.eventId ≠ envelope.eventId := by
    intro heq
    obtain ⟨e, he, -⟩ := hq.retained r hr hl
    rw [heq, hnew] at he
    cases he
  rw [if_pos (hfresh hrow hlive)] at hold
  refine ⟨by rw [hevent, if_pos rfl], hkey, ?_, ?_, ?_, ?_⟩
  · intro id hid
    rw [hevent, if_neg]
    rintro rfl
    exact hid hnew
  · intro r hr hl hne
    rw [hold, List.mem_cons]
    refine ⟨hfresh hr hl, ?_⟩
    rintro (heq | hmem)
    · exact hne (congrArg _ (hq.distinct r hr row hrow hl hlive heq))
    · exact hq.current r hr hl hmem
  · intro id hid
    rw [hold] at hid
    rcases List.mem_cons.mp hid with rfl | hid
    · obtain ⟨e, he, -⟩ := hq.retained row hrow hlive
      rw [he]
      exact Option.some_ne_none _
    · exact hq.old id hid
  · rw [hold, List.mem_cons]
    rintro (heq | hmem)
    · exact hfresh hrow hlive heq.symm
    · exact hq.old _ hmem hnew

theorem Queued.queueAgain (hq : Queued acks key generation (row.destination :: todo) q)
    (hrow : row ∈ q.room.rows) (hlive : row.acknowledgedAt = none)
    (h : queueAgain q req key rotating generation row = .ok q') :
    Queued acks key generation todo q' := by
  obtain ⟨envelope, hevent, hrows, hsent⟩ := queueAgain_eq_ok h
  have hmem {r : TerminalRoomDeletion} (hr : r ∈ q'.room.rows) :
      r = row.requeued envelope generation req.now ∨
        r ∈ q.room.rows ∧ r.destination ≠ row.destination := by
    rw [hrows] at hr
    rcases mem_updateBy hr with ⟨_, -, -, rfl⟩ | hr
    · exact .inl rfl
    · exact .inr hr
  have hswap : EventSwap key q q' row envelope := by
    rcases hevent with ⟨hfound, hid, hkey, hevents, hold⟩ | ⟨hnew, hkey, hevents, hold⟩
    · exact hq.reuse hrow hlive hfound hid hkey hevents hold
    · exact hq.resign hrow hlive hnew hkey hevents hold
  constructor
  · rw [hrows, map_key_updateBy]
    · exact hq.destinations
    · exact fun _ _ => rfl
  · intro r hr hsettled
    rcases hmem hr with rfl | ⟨hr, -⟩
    · exact absurd hlive hsettled
    · exact hq.settled r hr hsettled
  · intro r hr hl
    rcases hmem hr with rfl | ⟨hr, -⟩
    · exact ⟨envelope, hswap.found, rfl⟩
    · obtain ⟨e, he, hk⟩ := hq.retained r hr hl
      refine ⟨e, ?_, hk⟩
      rw [hswap.stays _ (by rw [he]; exact Option.some_ne_none _)]
      exact he
  · intro r hr hl
    rcases hmem hr with rfl | ⟨hr, hne⟩
    · exact .inl hswap.signed
    · exact (hq.signed r hr hl).imp_right fun htodo => (List.mem_cons.mp htodo).resolve_left hne
  · intro r hr r' hr' hl hl' hid
    rcases hmem hr with rfl | ⟨hr, hne⟩ <;> rcases hmem hr' with rfl | ⟨hr', hne'⟩
    · rfl
    · exact absurd hid.symm (hswap.apart r' hr' hl' hne').1
    · exact absurd hid (hswap.apart r hr hl hne).1
    · exact hq.distinct r hr r' hr' hl hl' hid
  · intro id hid
    rw [hswap.stays id (hswap.oldKept id hid)]
    exact hswap.oldKept id hid
  · intro r hr hl
    rcases hmem hr with rfl | ⟨hr, hne⟩
    · exact hswap.notOld
    · exact (hswap.apart r hr hl hne).2
  · intro r hr
    rcases hmem hr with rfl | ⟨hr, -⟩
    · exact Nat.le_refl _
    · exact hq.bounded r hr
  · exact fun o ho hst => hq.delivered o (hsent o ho hst) hst

end

/-! ## What becomes of a row -/

/-- The row of this destination is still there, no older in generation, and
acknowledged if it was. -/
def KeptIn (row : TerminalRoomDeletion) (rows : List TerminalRoomDeletion) : Prop :=
  ∃ row' ∈ rows, row'.destination = row.destination ∧ row.generation ≤ row'.generation ∧
    (row.acknowledgedAt ≠ none → row'.acknowledgedAt ≠ none)

theorem keptIn_of_mem {row : TerminalRoomDeletion} {rows : List TerminalRoomDeletion}
    (h : row ∈ rows) : KeptIn row rows := ⟨row, h, rfl, Nat.le_refl _, id⟩

theorem KeptIn.trans {row : TerminalRoomDeletion} {rows rows' : List TerminalRoomDeletion}
    (h : KeptIn row rows) (hrows : ∀ r ∈ rows, KeptIn r rows') : KeptIn row rows' := by
  obtain ⟨r, hr, hdest, hgen, hack⟩ := h
  obtain ⟨r', hr', hdest', hgen', hack'⟩ := hrows r hr
  exact ⟨r', hr', hdest'.trans hdest, Nat.le_trans hgen hgen', fun h => hack' (hack h)⟩

theorem KeptIn.destination_mem {row : TerminalRoomDeletion} {rows : List TerminalRoomDeletion}
    (h : KeptIn row rows) : row.destination ∈ rows.map TerminalRoomDeletion.destination := by
  obtain ⟨r, hr, hdest, -, -⟩ := h
  exact List.mem_map.mpr ⟨r, hr, hdest⟩

/-- Rows keep their destination through an update. -/
theorem keptIn_updateBy {row new : TerminalRoomDeletion} {rows : List TerminalRoomDeletion}
    {k : String} (hrow : row ∈ rows)
    (hnew : row.destination = k → new.destination = k ∧ row.generation ≤ new.generation ∧
      (row.acknowledgedAt ≠ none → new.acknowledgedAt ≠ none)) :
    KeptIn row (updateBy TerminalRoomDeletion.destination k (fun _ => new) rows) := by
  by_cases hk : row.destination = k
  · obtain ⟨hdest, hgen, hack⟩ := hnew hk
    exact ⟨new, List.mem_map.mpr ⟨row, hrow, if_pos hk⟩, hdest.trans hk.symm, hgen, hack⟩
  · exact keptIn_of_mem (mem_updateBy_of_ne hrow hk)

theorem queueDestination_spec {destination : String} {todo : List String}
    (hq : Queued acks key generation (destination :: todo) q)
    (h : queueDestination req key rotating generation q destination = .ok q') :
    Queued acks key generation todo q' ∧ (∀ row ∈ q.room.rows, KeptIn row q'.room.rows) ∧
      destination ∈ q'.room.rows.map TerminalRoomDeletion.destination := by
  unfold queueDestination at h
  split at h
  · rename_i row hfound
    have hrow : row ∈ q.room.rows := mem_of_lookupBy hfound
    have hdest : row.destination = destination := key_of_lookupBy hfound
    subst hdest
    have hsame {r : TerminalRoomDeletion} (hr : r ∈ q.room.rows)
        (hd : r.destination = row.destination) : r = row :=
      List.inj_on_of_nodup_map hq.destinations hr hrow hd
    split at h
    · rename_i hsettled
      obtain rfl := Except.ok.inj h
      refine ⟨⟨hq.destinations, hq.settled, hq.retained, ?_, hq.distinct, hq.old, hq.current,
        hq.bounded, hq.delivered⟩, fun r hr => keptIn_of_mem hr, List.mem_map_of_mem hrow⟩
      intro r hr hl
      refine (hq.signed r hr hl).imp_right fun htodo => (List.mem_cons.mp htodo).resolve_left ?_
      intro hd
      exact hsettled (hsame hr hd ▸ hl)
    · rename_i hlive
      obtain ⟨-, h⟩ := check_bind_eq_ok.mp h
      have hkept : ∀ r ∈ q.room.rows, KeptIn r q'.room.rows := by
        obtain ⟨envelope, -, hrows, -⟩ := queueAgain_eq_ok h
        intro r hr
        rw [hrows]
        refine keptIn_updateBy hr fun hd => ⟨rfl, hq.bounded r hr, fun hack => ?_⟩
        rw [hsame hr hd] at hack
        exact hack
      exact ⟨hq.queueAgain hrow (not_not.mp hlive) h, hkept, (hkept row hrow).destination_mem⟩
  · rename_i hnone
    obtain ⟨-, h⟩ := check_bind_eq_ok.mp h
    obtain ⟨envelope, -, -, -, hrows, -, -⟩ := queueNew_eq_ok h
    refine ⟨hq.queueNew hnone h, fun r hr => ?_, ?_⟩
    · rw [hrows]
      exact keptIn_of_mem (List.mem_append_left _ hr)
    · rw [hrows, List.map_append]
      exact List.mem_append_right _ List.mem_cons_self

theorem queueEach_spec {todo : List String} (hq : Queued acks key generation todo q)
    (h : queueEach req key rotating generation q todo = .ok q') :
    Queued acks key generation [] q' ∧ (∀ row ∈ q.room.rows, KeptIn row q'.room.rows) ∧
      ∀ d ∈ todo, d ∈ q'.room.rows.map TerminalRoomDeletion.destination := by
  induction todo generalizing q with
  | nil =>
      obtain rfl := Except.ok.inj h
      exact ⟨hq, fun r hr => keptIn_of_mem hr, fun d hd => absurd hd List.not_mem_nil⟩
  | cons destination todo ih =>
      obtain ⟨q₁, hfirst, h⟩ := bind_eq_ok.mp h
      obtain ⟨hq₁, hkept, hdest⟩ := queueDestination_spec hq hfirst
      obtain ⟨hq', hkept', hdests⟩ := ih hq₁ h
      refine ⟨hq', fun r hr => (hkept r hr).trans hkept', fun d hd => ?_⟩
      rcases List.mem_cons.mp hd with rfl | hd
      · obtain ⟨r, hr, rfl⟩ := List.mem_map.mp hdest
        exact (hkept' r hr).destination_mem
      · exact hdests d hd

/-! ## The operations -/

theorem generation_le_maxGeneration {row : TerminalRoomDeletion} (h : row ∈ s.rows) :
    row.generation ≤ s.maxGeneration := by
  unfold maxGeneration
  generalize s.rows = rows at h ⊢
  induction rows with
  | nil => exact absurd h List.not_mem_nil
  | cons first rest ih =>
      rw [List.foldr_cons]
      rcases List.mem_cons.mp h with rfl | h
      · exact Nat.le_max_left _ _
      · exact Nat.le_trans (ih h) (Nat.le_max_right _ _)

theorem mem_queueDestinations {d : String} :
    d ∈ s.queueDestinations req ↔ (d ∈ req.destinations ∧ d ≠ s.domain) ∨ d ∈ s.recipients ∨
      d ∈ s.rows.map TerminalRoomDeletion.destination := by
  rw [queueDestinations, List.mem_insertionSort, List.mem_dedup, List.mem_append, List.mem_append,
    List.mem_filter, decide_eq_true_eq, or_assoc]

theorem event?_deleteEvents {ids : List String} {id : String} (h : id ∉ ids) :
    (s.deleteEvents ids).event? id = s.event? id := by
  refine lookupBy_filter fun e he => decide_eq_true ?_
  rw [he]
  exact h

/-- A queueing keeps the ledger and every row, and gives each destination a
row. -/
theorem queueTerminalRoomDeletion_spec (hs : s.Ledger acks last)
    (h : s.queueTerminalRoomDeletion req = .ok s') :
    s'.Ledger acks s.currentKeyId ∧ (∀ row ∈ s.rows, KeptIn row s'.rows) ∧
      ∀ d ∈ s.queueDestinations req, d ∈ s'.rows.map TerminalRoomDeletion.destination := by
  obtain ⟨-, h⟩ := check_bind_eq_ok.mp h
  obtain ⟨key, hkey, h⟩ := found_bind_eq_ok.mp h
  obtain ⟨-, h⟩ := check_bind_eq_ok.mp h
  obtain ⟨-, h⟩ := check_bind_eq_ok.mp h
  obtain ⟨q, hloop, h⟩ := bind_eq_ok.mp h
  obtain rfl := Except.ok.inj h
  have hstart : Queued acks key
      (if s.isRotating key ∨ s.maxGeneration = 0 then s.maxGeneration + 1 else s.maxGeneration)
      (s.queueDestinations req) ⟨s, []⟩ := by
    refine ⟨hs.destinations, hs.settled, hs.retained, fun row hrow _ => .inr ?_, hs.distinct,
      fun id hid => absurd hid List.not_mem_nil, fun _ _ _ => List.not_mem_nil,
      fun row hrow => ?_, hs.delivered⟩
    · exact mem_queueDestinations.mpr (.inr (.inr (List.mem_map_of_mem hrow)))
    · have hle : row.generation ≤ s.maxGeneration := generation_le_maxGeneration hrow
      split <;> omega
  obtain ⟨hq, hkept, hdests⟩ := queueEach_spec hstart hloop
  refine ⟨⟨hq.destinations, hq.settled, fun row hrow hl => ?_, fun row hrow hl => ?_,
    hq.distinct, fun o ho => hq.delivered o (List.mem_of_mem_filter ho)⟩, hkept, hdests⟩
  · obtain ⟨e, he, hk⟩ := hq.retained row hrow hl
    exact ⟨e, (event?_deleteEvents (hq.current row hrow hl)).trans he, hk⟩
  · rw [(hq.signed row hrow hl).resolve_right List.not_mem_nil, hkey]

/-- Settling a row keeps the ledger and every row. -/
theorem settle_spec (hs : s.Ledger acks last) {row : TerminalRoomDeletion}
    (hack : row.destination ∈ acks) (now : Int) :
    (s.settle row now).Ledger acks last ∧ ∀ r ∈ s.rows, KeptIn r (s.settle row now).rows := by
  have hmem {r' : TerminalRoomDeletion} (hr' : r' ∈ (s.settle row now).rows) :
      ∃ r ∈ s.rows, r' = r ∧ r.destination ≠ row.destination ∨
        r' = { r with acknowledgedAt := some now, updatedAt := now } ∧
          r.destination = row.destination := by
    obtain ⟨r, hr, rfl⟩ := List.mem_map.mp hr'
    by_cases hd : r.destination = row.destination
    · exact ⟨r, hr, .inr ⟨if_pos hd, hd⟩⟩
    · exact ⟨r, hr, .inl ⟨if_neg hd, hd⟩⟩
  have hlive {r' : TerminalRoomDeletion} (hr' : r' ∈ (s.settle row now).rows)
      (hl : r'.acknowledgedAt = none) : r' ∈ s.rows := by
    obtain ⟨r, hr, ⟨rfl, -⟩ | ⟨rfl, -⟩⟩ := hmem hr'
    · exact hr
    · cases hl
  refine ⟨⟨?_, ?_, fun r hr hl => hs.retained r (hlive hr hl) hl,
    fun r hr hl => hs.signed r (hlive hr hl) hl,
    fun r hr r' hr' hl hl' => hs.distinct r (hlive hr hl) r' (hlive hr' hl') hl hl',
    hs.delivered⟩, ?_⟩
  · have hkeys : (s.settle row now).rows.map TerminalRoomDeletion.destination
        = s.rows.map TerminalRoomDeletion.destination := map_key_updateBy fun _ hd => hd
    rw [hkeys]
    exact hs.destinations
  · intro r' hr' hsettled
    obtain ⟨r, hr, ⟨rfl, -⟩ | ⟨rfl, hd⟩⟩ := hmem hr'
    · exact hs.settled r' hr hsettled
    · exact hd ▸ hack
  · intro r hr
    by_cases hd : r.destination = row.destination
    · exact ⟨{ r with acknowledgedAt := some now, updatedAt := now },
        List.mem_map.mpr ⟨r, hr, if_pos hd⟩, rfl, Nat.le_refl _, fun _ => Option.some_ne_none _⟩
    · exact keptIn_of_mem (List.mem_map.mpr ⟨r, hr, if_neg hd⟩)

theorem exists_head?_orderedRows {row : TerminalRoomDeletion} (h : row ∈ s.rows) :
    ∃ template, s.orderedRows.head? = some template := by
  have hmem : row ∈ s.orderedRows := (List.mem_insertionSort _).mpr h
  cases hrows : s.orderedRows with
  | nil => rw [hrows] at hmem; cases hmem
  | cons template rest => exact ⟨template, rfl⟩

/-- What a transaction does to the rows: all are kept, or it is a cleanup
and all of them are acknowledged. -/
def Fate (s : TerminalRoom) (a : Action) (s' : TerminalRoom) : Prop :=
  (∀ row ∈ s.rows, KeptIn row s'.rows) ∨
  (∃ cutoff, a = .cleanup cutoff) ∧ ∀ row ∈ s.rows, row.acknowledgedAt ≠ none

/-- Rows and events are not touched. -/
theorem Ledger.of_same (hs : s.Ledger acks last) (hrows : s'.rows = s.rows)
    (hevents : s'.events = s.events) {last' : Option String} {acks' : List String}
    (hkey : ∀ row ∈ s.rows, row.acknowledgedAt = none → some row.keyId = last')
    (hacks : acks ⊆ acks')
    (hsent : ∀ o ∈ s'.outbox, o.status = .delivered → o.destination ∈ acks') :
    s'.Ledger acks' last' := by
  refine ⟨hrows ▸ hs.destinations, ?_, ?_, hrows ▸ hkey, ?_, hsent⟩
  · rw [hrows]
    exact fun row hrow hl => hacks (hs.settled row hrow hl)
  · intro row hrow hl
    rw [event?, hevents]
    exact hs.retained row (hrows ▸ hrow) hl
  · rw [hrows]
    exact hs.distinct

/-- More may have acknowledged. -/
theorem Ledger.mono (hs : s.Ledger acks last) {acks' : List String} (h : acks ⊆ acks') :
    s.Ledger acks' last :=
  hs.of_same rfl rfl hs.signed h fun o ho hst => h (hs.delivered o ho hst)

/-- An outbox row that is delivered now was delivered before, or this
transaction put it down. -/
theorem delivered_after {destination eventId : String} {status : OutboxStatus}
    (hs : s.Ledger acks last) {o : FederationOutboxRow}
    (ho : o ∈ s.outbox.map fun o =>
      if o.destination = destination ∧ o.eventId = eventId then { o with status := status } else o)
    (hst : o.status = .delivered) :
    o.destination ∈
      TerminalRun.acknowledging s (.deliver destination eventId status) ++ acks := by
  obtain ⟨o', ho', rfl⟩ := List.mem_map.mp ho
  split at hst
  · rename_i hrow
    obtain rfl : status = .delivered := hst
    have hany : s.outbox.any (fun o => o.destination = destination ∧ o.eventId = eventId) = true :=
      List.any_eq_true.mpr ⟨o', ho', decide_eq_true hrow⟩
    simp only [if_pos hrow, TerminalRun.acknowledging, hany, if_true]
    exact List.mem_append_left _ (hrow.1 ▸ List.mem_singleton_self _)
  · rename_i hrow
    rw [if_neg hrow]
    exact List.mem_append_right _ (hs.delivered o' ho' hst)

theorem acknowledge_spec {destination : String} {envelope : TerminalEnvelope} {now : Int}
    (hs : s.Ledger acks last)
    (h : s.acknowledgeTerminalRoomDelivery destination envelope now = .ok s') :
    s'.Ledger (TerminalRun.acknowledging s (.acknowledge destination envelope now) ++ acks) last ∧
      ∀ row ∈ s.rows, KeptIn row s'.rows := by
  unfold acknowledgeTerminalRoomDelivery at h
  split at h
  · obtain rfl := Except.ok.inj h
    exact ⟨hs.mono (List.subset_append_right _ _), fun _ hr => keptIn_of_mem hr⟩
  · rename_i row hfound
    obtain ⟨-, h⟩ := check_bind_eq_ok.mp h
    obtain rfl := Except.ok.inj h
    have hdest : row.destination = destination := key_of_lookupBy hfound
    refine settle_spec (hs.mono (List.subset_append_right _ _)) ?_ now
    rw [TerminalRun.acknowledging, hfound, hdest]
    exact List.mem_cons_self

/-- A delivery that was put down before is an acknowledgement. -/
theorem repair_spec (hs : s.Ledger acks last) (destination : String) (now : Int) :
    (s.repairTerminalRoomDeliveryAck destination now).Ledger acks last ∧
      ∀ row ∈ s.rows, KeptIn row (s.repairTerminalRoomDeliveryAck destination now).rows := by
  have hsame : s.Ledger acks last ∧ ∀ row ∈ s.rows, KeptIn row s.rows :=
    ⟨hs, fun _ hr => keptIn_of_mem hr⟩
  unfold repairTerminalRoomDeliveryAck
  split
  · exact hsame
  rename_i row hfound
  split
  · rename_i hrepair
    obtain ⟨o, ho, hmatch⟩ := List.any_eq_true.mp hrepair.2
    obtain ⟨hdest, -, hst⟩ := of_decide_eq_true hmatch
    have hrow : row.destination = destination := key_of_lookupBy hfound
    have hack : row.destination ∈ acks := by
      rw [hrow, ← hdest]
      exact hs.delivered o ho hst
    exact settle_spec hs hack now
  · exact hsame

theorem rotate_spec {token : String → String} {refused : List String} {now : Int}
    (hs : s.Ledger acks last)
    (h : s.rotateTerminalRoomDeletions token refused now = .ok s') :
    s'.Ledger acks s.currentKeyId ∧ ∀ row ∈ s.rows, KeptIn row s'.rows := by
  obtain ⟨key, hkey, h⟩ := found_bind_eq_ok.mp h
  split at h
  · obtain ⟨hledger, hkept, -⟩ := queueTerminalRoomDeletion_spec hs h
    exact ⟨hledger, hkept⟩
  · rename_i hnone
    obtain rfl := Except.ok.inj h
    refine ⟨hs.of_same rfl rfl (fun row hrow hl => ?_) (List.Subset.refl _) hs.delivered,
      fun _ hr => keptIn_of_mem hr⟩
    -- A row with an old signature would have made the rotation queue it.
    by_contra hne
    have hrotating : s.isRotating key = true :=
      List.any_eq_true.mpr
        ⟨row, hrow, decide_eq_true ⟨hl, fun heq => hne (heq ▸ hkey.symm)⟩⟩
    obtain ⟨template, htemplate⟩ := exists_head?_orderedRows hrow
    exact hnone template hrotating htemplate

theorem cleanup_spec (hs : s.Ledger acks last) (cutoff : Int) :
    (s.cleanupTerminalRoomDeletions cutoff).Ledger acks last ∧
      s.Fate (.cleanup cutoff) (s.cleanupTerminalRoomDeletions cutoff) := by
  unfold cleanupTerminalRoomDeletions
  split
  · rename_i hsettled
    refine ⟨⟨List.nodup_nil, ?_, ?_, ?_, ?_, fun o ho =>
      hs.delivered o (List.mem_of_mem_filter ho)⟩, .inr ⟨⟨cutoff, rfl⟩, fun row hr =>
      (hsettled.2 row hr).1⟩⟩
    all_goals exact fun row hr => absurd hr List.not_mem_nil
  · exact ⟨hs, .inl fun _ hr => keptIn_of_mem hr⟩

theorem perform_spec {a : Action} (hs : s.Ledger acks last) (h : s.perform a = .ok s') :
    s'.Ledger (TerminalRun.acknowledging s a ++ acks) (TerminalRun.keyAfter s last a) ∧
      s.Fate a s' := by
  have hall : ∀ row ∈ s.rows, KeptIn row s.rows := fun _ hr => keptIn_of_mem hr
  cases a with
  | queue req =>
      obtain ⟨hledger, hkept, -⟩ := queueTerminalRoomDeletion_spec hs h
      exact ⟨hledger, .inl hkept⟩
  | acknowledge destination envelope now => exact (acknowledge_spec hs h).imp_right .inl
  | repair destination now =>
      obtain rfl := Except.ok.inj h
      exact (repair_spec hs destination now).imp_right .inl
  | rotate token refused now => exact (rotate_spec hs h).imp_right .inl
  | cleanup cutoff =>
      obtain rfl := Except.ok.inj h
      exact cleanup_spec hs cutoff
  | rollover key =>
      obtain rfl := Except.ok.inj h
      refine ⟨hs.of_same ?_ ?_ hs.signed (List.Subset.refl _) hs.delivered, .inl hall⟩
      · rfl
      · rfl
  | record destination =>
      obtain rfl := Except.ok.inj h
      refine ⟨hs.of_same ?_ ?_ hs.signed (List.Subset.refl _) hs.delivered, .inl hall⟩
      · rfl
      · rfl
  | deliver destination eventId status =>
      obtain rfl := Except.ok.inj h
      refine ⟨hs.of_same ?_ ?_ hs.signed (List.subset_append_right _ _) ?_, .inl hall⟩
      · rfl
      · rfl
      · exact fun o ho hst => delivered_after hs ho hst

theorem ledger_beforeDeletion (kind : TerminalRoomKind) (domain : String) (key : Option String)
    (recipients : List String) : (beforeDeletion kind domain key recipients).Ledger [] none := by
  refine ⟨List.nodup_nil, ?_, ?_, ?_, ?_, ?_⟩
  all_goals exact fun _ hr => absurd hr List.not_mem_nil

end TerminalRoom

/-! ## Runs -/

namespace TerminalRun

open TerminalRoom

variable {r r' r₂ : TerminalRun} {s : TerminalRoom} {req : DeletionRequest}

def Ledger (r : TerminalRun) : Prop := r.room.Ledger r.acknowledged r.lastKey

theorem step_spec {a : TerminalRoom.Action} (hr : r.Ledger) (h : r.step a = some r') :
    r'.Ledger ∧ r.room.Fate a r'.room ∧ r.acknowledged ⊆ r'.acknowledged := by
  unfold step at h
  split at h
  · obtain rfl := Option.some.inj h
    exact ⟨hr, .inl fun _ hr => keptIn_of_mem hr, List.Subset.refl _⟩
  · rename_i hok
    obtain rfl := Option.some.inj h
    obtain ⟨hledger, hfate⟩ := perform_spec hr hok
    exact ⟨hledger, hfate, List.subset_append_right _ _⟩

/-- The destination has a row, or has acknowledged. -/
def Tracked (r : TerminalRun) (d : String) : Prop :=
  d ∈ r.room.rows.map TerminalRoomDeletion.destination ∨ d ∈ r.acknowledged

theorem Tracked.step {a : TerminalRoom.Action} {d : String} (hr : r.Ledger) (hd : r.Tracked d)
    (h : r.step a = some r') : r'.Tracked d := by
  obtain ⟨-, hfate, hacks⟩ := step_spec hr h
  rcases hd with hd | hd
  · obtain ⟨row, hrow, rfl⟩ := List.mem_map.mp hd
    rcases hfate with hkept | ⟨-, hsettled⟩
    · exact .inl (hkept row hrow).destination_mem
    · exact .inr (hacks (hr.settled row hrow (hsettled row hrow)))
  · exact .inr (hacks hd)

/-- The destination still has to accept an event that is kept and carries
the key that was current at the last queueing or rotation, or it has
acknowledged. -/
def Covered (r : TerminalRun) (d : String) : Prop :=
  (∃ row ∈ r.room.rows, row.destination = d ∧ row.acknowledgedAt = none ∧
    ∃ e, r.room.event? row.eventId = some e ∧ some e.keyId = r.lastKey) ∨ d ∈ r.acknowledged

theorem Tracked.covered {d : String} (hr : r.Ledger) (hd : r.Tracked d) : r.Covered d := by
  rcases hd with hd | hd
  · obtain ⟨row, hrow, rfl⟩ := List.mem_map.mp hd
    by_cases hl : row.acknowledgedAt = none
    · obtain ⟨e, he, hkey⟩ := hr.retained row hrow hl
      exact .inl ⟨row, hrow, rfl, hl, e, he, hkey ▸ hr.signed row hrow hl⟩
    · exact .inr (hr.settled row hrow hl)
  · exact .inr hd

/-- Whatever happens to a room, every instance on record or asked for when
its deletion was queued stays covered, no row loses its generation or its
acknowledgement, and rows go only in a cleanup that finds all of them
acknowledged. -/
theorem no_destination_forgotten {kind : TerminalRoomKind} {domain : String} {key : Option String}
    {recipients : List String} {as bs : List TerminalRoom.Action}
    (hbefore : Exec step Always (start (beforeDeletion kind domain key recipients)) as r)
    (hqueue : r.room.queueTerminalRoomDeletion req = .ok s)
    (hafter : Exec step Always r (.queue req :: bs) r₂) :
    (∀ d, d ∈ r.room.recipients ∨ d ∈ req.destinations ∧ d ≠ r.room.domain → r₂.Covered d) ∧
    ∀ a r₃, r₂.step a = some r₃ → r₂.room.Fate a r₃.room := by
  have hr : r.Ledger := hbefore.invariant (fun _ _ _ hs _ h => (step_spec hs h).1)
    (ledger_beforeDeletion kind domain key recipients)
  obtain ⟨-, -, hdests⟩ := queueTerminalRoomDeletion_spec hr hqueue
  cases hafter with
  | @cons _ r₁ _ _ _ _ hfirst hrest =>
    have hr₁ : r₁.Ledger := (step_spec hr hfirst).1
    have hroom : r₁.room = s := by
      rw [step, perform, hqueue] at hfirst
      exact (Option.some.inj hfirst) ▸ rfl
    have hr₂ : r₂.Ledger := hrest.invariant (fun _ _ _ hs _ h => (step_spec hs h).1) hr₁
    refine ⟨fun d hd => ?_, fun a r₃ h => (step_spec hr₂ h).2.1⟩
    have hmem : d ∈ r.room.queueDestinations req := by
      rw [mem_queueDestinations]
      rcases hd with hd | hd
      · exact .inr (.inl hd)
      · exact .inl hd
    have htracked := hrest.invariant (I := fun r => r.Ledger ∧ r.Tracked d)
      (fun _ _ _ hs _ h => ⟨(step_spec hs.1 h).1, hs.2.step hs.1 h⟩)
      ⟨hr₁, .inl (hroom ▸ hdests d hmem)⟩
    exact htracked.2.covered hr₂

/-- A guild with one recipient on record and one asked for. -/
def sampleRequest : DeletionRequest where
  actor := ⟨1, "a"⟩
  eventType := .guildInstanceAccessRevoked
  content := "guild_deleted"
  context := "guild 7"
  destinations := ["c", "a"]
  token d := if d = "b" then "e1" else "e2"
  refused := []
  now := 10

def sampleRow (destination eventId keyId : String) (generation : Nat) (ack : Option Int)
    (updatedAt : Int) : TerminalRoomDeletion :=
  ⟨destination, ⟨1, "a"⟩, .guildInstanceAccessRevoked, "guild_deleted", "guild 7", eventId, keyId,
    generation, ack, updatedAt⟩

def sampleEvent (destination eventId keyId : String) (generation : Nat) : TerminalEnvelope :=
  ⟨eventId, keyId, .guildInstanceAccessRevoked, ⟨1, "a"⟩, "guild_deleted", "guild 7", generation,
    some destination⟩

def sampleQueued : TerminalRoom where
  kind := .guild
  domain := "a"
  currentKeyId := some "k1"
  recipients := []
  rows := [sampleRow "b" "e1" "k1" 1 none 10, sampleRow "c" "e2" "k1" 1 none 10]
  events := [sampleEvent "b" "e1" "k1" 1, sampleEvent "c" "e2" "k1" 1]
  outbox := [⟨"b", "e1", .pending⟩, ⟨"c", "e2", .pending⟩]

/-- The key rolls over, `b` acknowledges its first event late, and the
rotation signs again for `c` alone. -/
def sampleActions : List TerminalRoom.Action :=
  [.rollover (some "k2"), .acknowledge "b" (sampleEvent "b" "e1" "k1" 1) 20,
   .rotate (fun _ => "e3") [] 30]

def sampleRotated : TerminalRun where
  room := { sampleQueued with
    currentKeyId := some "k2"
    rows := [sampleRow "b" "e1" "k1" 1 (some 20) 20, sampleRow "c" "e3" "k2" 2 none 30]
    events := [sampleEvent "b" "e1" "k1" 1, sampleEvent "c" "e3" "k2" 2]
    outbox := [⟨"b", "e1", .pending⟩, ⟨"c", "e3", .pending⟩] }
  acknowledged := ["b"]
  lastKey := some "k2"

theorem no_destination_forgotten_sample :
    Exec step Always (start (beforeDeletion .guild "a" (some "k1") ["b"]))
        (.queue sampleRequest :: sampleActions) sampleRotated ∧
      sampleRotated.Covered "b" ∧ sampleRotated.Covered "c" := by
  have hqueue : (beforeDeletion .guild "a" (some "k1") ["b"]).queueTerminalRoomDeletion
      sampleRequest = .ok sampleQueued := by decide
  have hafter : Exec step Always (start (beforeDeletion .guild "a" (some "k1") ["b"]))
      (.queue sampleRequest :: sampleActions) sampleRotated :=
    Exec.of_runFrom (by decide)
  have h := no_destination_forgotten (.nil _) hqueue hafter
  exact ⟨hafter, h.1 "b" (.inl (by decide)), h.1 "c" (.inr (by decide))⟩

end TerminalRun

end Kaede
