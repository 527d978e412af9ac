import Kaede.Gateway

/-!
# One connection of a gateway session

What holds of a connection whatever it does: its position fits the frames of
its client, the events that are pending go on from there without a gap, and
what a stream has beyond the cursor is pending or in the inbox. Every function
of the connection keeps this and only adds frames, under higher numbers.
-/

namespace Kaede

namespace Gateway

/-! ## Events of a topic -/

/-- The events of a topic among some frames. -/
def sent (frames : List Frame) (t : Topic) : List Nat :=
  frames.filterMap fun f => f.event.bind fun i => if i.1 = t then some i.2 else none

theorem mem_sent {frames : List Frame} {t : Topic} {n : Nat} :
    n ∈ sent frames t ↔ ∃ f ∈ frames, f.event = some (t, n) := by
  rw [sent, List.mem_filterMap]
  refine exists_congr fun f => and_congr_right fun _ => ?_
  rw [Option.bind_eq_some_iff]
  constructor
  · rintro ⟨⟨u, m⟩, hevent, h⟩
    split at h
    · rename_i hu
      obtain rfl := Option.some.inj h
      obtain rfl : u = t := hu
      exact hevent
    · exact absurd h (by simp)
  · intro hevent
    exact ⟨(t, n), hevent, if_pos rfl⟩

theorem sent_append {frames new : List Frame} {t : Topic} :
    sent (frames ++ new) t = sent frames t ++ sent new t := List.filterMap_append

/-- Frames that carry no event. -/
theorem sent_others {new : List Frame} (h : ∀ f ∈ new, f.event = none) (t : Topic) :
    sent new t = [] := by
  refine List.eq_nil_iff_forall_not_mem.mpr fun n hn => ?_
  obtain ⟨f, hf, hevent⟩ := mem_sent.mp hn
  rw [h f hf] at hevent
  exact absurd hevent (by simp)

/-- The frames up to a number. -/
def upTo (q : Nat) (frames : List Frame) : List Frame := frames.filter (·.number ≤ q)

theorem upTo_upTo {q r : Nat} (h : q ≤ r) (frames : List Frame) :
    upTo q (upTo r frames) = upTo q frames := by
  rw [upTo, upTo, List.filter_filter]
  refine List.filter_congr fun f _ => ?_
  rw [← Bool.decide_and, decide_eq_decide]
  exact and_iff_left_of_imp fun hf => le_trans hf h

/-! ## The invariant -/

structure StreamsOk (w : Streams) : Prop where
  sorted : ∀ t, (w.entries t).Pairwise fun a b => a.id < b.id ∧ a.seq < b.seq
  le : ∀ t, ∀ e ∈ w.entries t, e.seq ≤ w.seqs t

/-- A position that fits the frames of a client. -/
structure PositionOk (w : Streams) (frames : List Frame) (p : Position) : Prop where
  nodup : p.topics.Nodup
  cursor_le : ∀ t, p.cursors t ≤ w.seqs t
  sent_le : ∀ t, ∀ n ∈ sent frames t, n ≤ w.seqs t
  sent_le_cursor : ∀ t ∈ p.topics, ∀ n ∈ sent frames t, n ≤ p.cursors t
  ordered : ∀ t, (sent frames t).Pairwise (· < ·)
  none_lost : ∀ t ∈ p.topics, ∀ e ∈ w.entries t, p.base t < e.seq → e.seq ≤ p.cursors t →
    e.seq ∈ sent frames t ∨ (t, e.seq) ∈ p.passed

structure ConnOk (w : Streams) (k : Conn) : Prop where
  position : PositionOk w k.frames k.position
  numbers : ∀ f ∈ k.frames, f.number ≤ k.sequence
  idle : k.phase = .idle → k.pending = []
  inbox_le : ∀ i ∈ k.inbox, i.2.seq ≤ w.seqs i.1
  pending_le : ∀ i ∈ k.pending, i.2.seq ≤ w.seqs i.1
  pending_ordered : k.pending.Pairwise fun a b => a.1 = b.1 → a.2.seq < b.2.seq
  unsent : ∀ i ∈ k.pending, ∀ n ∈ sent k.frames i.1, n < i.2.seq
  /-- Nothing is left out before an event that is pending. -/
  contiguous : ∀ i ∈ k.pending, i.1 ∈ k.position.topics → ∀ e ∈ w.entries i.1,
    k.position.cursors i.1 < e.seq → e.seq < i.2.seq → (i.1, e) ∈ k.pending
  waiting : k.isOpen = true → ∀ t ∈ k.position.topics, ∀ e ∈ w.entries t,
    k.position.cursors t < e.seq → (t, e) ∈ k.pending ∨ (t, e) ∈ k.inbox

/-! ## Streams that lose entries -/

/-- Entries go away, nothing else happens. -/
structure Shrinks (w w' : Streams) : Prop where
  seqs : w'.seqs = w.seqs
  entries : ∀ t, (w'.entries t).Sublist (w.entries t)

section

variable {w w' : Streams}

theorem shrinks_trim (t : Topic) (n : Nat) : Shrinks w (w.trim t n) where
  seqs := rfl
  entries u := by
    by_cases h : u = t
    · subst h
      rw [Streams.trim]
      dsimp only
      rw [Function.update_self]
      exact List.drop_sublist n _
    · rw [Streams.trim]
      dsimp only
      rw [Function.update_of_ne h]

theorem shrinks_purge (topics : List Topic) (expired : List (Topic × Nat)) :
    Shrinks w (w.purge topics expired) where
  seqs := rfl
  entries u := by
    rw [Streams.purge]
    dsimp only
    split
    · exact List.filter_sublist
    · exact .refl _

theorem StreamsOk.shrink (h : StreamsOk w) (hw : Shrinks w w') : StreamsOk w' where
  sorted t := (h.sorted t).sublist (hw.entries t)
  le t e he := by
    rw [hw.seqs]
    exact h.le t e ((hw.entries t).subset he)

theorem PositionOk.shrink {frames : List Frame} {p : Position} (h : PositionOk w frames p)
    (hw : Shrinks w w') : PositionOk w' frames p where
  nodup := h.nodup
  cursor_le t := by
    rw [hw.seqs]
    exact h.cursor_le t
  sent_le t n hn := by
    rw [hw.seqs]
    exact h.sent_le t n hn
  sent_le_cursor := h.sent_le_cursor
  ordered := h.ordered
  none_lost t ht e he := h.none_lost t ht e ((hw.entries t).subset he)

theorem ConnOk.shrink {k : Conn} (h : ConnOk w k) (hw : Shrinks w w') : ConnOk w' k where
  position := h.position.shrink hw
  numbers := h.numbers
  idle := h.idle
  inbox_le i hi := by
    rw [hw.seqs]
    exact h.inbox_le i hi
  pending_le i hi := by
    rw [hw.seqs]
    exact h.pending_le i hi
  pending_ordered := h.pending_ordered
  unsent := h.unsent
  contiguous i hi ht e he := h.contiguous i hi ht e ((hw.entries _).subset he)
  waiting hopen t ht e he := h.waiting hopen t ht e ((hw.entries t).subset he)

end

/-! ## A connection at work -/

/-- The connection has sent more, under higher numbers. -/
structure Extends (c : Nat) (k k' : Conn) : Prop where
  frames : ∃ new, k'.frames = k.frames ++ new ∧
    ∀ f ∈ new, k.sequence < f.number ∧ f.sender = c
  sequence : k.sequence ≤ k'.sequence

section

variable {w : Streams} {c : Nat} {k k' k'' : Conn}

theorem Extends.refl (c : Nat) (k : Conn) : Extends c k k where
  frames := ⟨[], (List.append_nil _).symm, by simp⟩
  sequence := le_rfl

theorem Extends.trans (h : Extends c k k') (h' : Extends c k' k'') : Extends c k k'' := by
  obtain ⟨⟨new, hnew, hfresh⟩, hseq⟩ := h
  obtain ⟨⟨new', hnew', hfresh'⟩, hseq'⟩ := h'
  refine ⟨⟨new ++ new', by rw [hnew', hnew, List.append_assoc], fun f hf => ?_⟩,
    hseq.trans hseq'⟩
  rcases List.mem_append.mp hf with hf | hf
  · exact hfresh f hf
  · exact ⟨lt_of_le_of_lt hseq (hfresh' f hf).1, (hfresh' f hf).2⟩

theorem extends_send (c : Nat) (k : Conn) (event : Option (Topic × Nat)) :
    Extends c k (k.send c event) where
  frames := ⟨_, rfl, fun f hf => by
    obtain rfl := List.mem_singleton.mp hf
    exact ⟨Nat.lt_succ_self _, rfl⟩⟩
  sequence := Nat.le_succ _

theorem Extends.upTo_eq (h : Extends c k k') {q : Nat} (hq : q ≤ k.sequence) :
    upTo q k'.frames = upTo q k.frames := by
  obtain ⟨new, hnew, hfresh⟩ := h.frames
  have hnone : new.filter (·.number ≤ q) = [] := by
    refine List.filter_eq_nil_iff.mpr fun f hf => ?_
    simpa using lt_of_le_of_lt hq (hfresh f hf).1
  rw [upTo, hnew, List.filter_append, hnone, List.append_nil]
  rfl

theorem ConnOk.upTo_sequence (h : ConnOk w k) : upTo k.sequence k.frames = k.frames :=
  List.filter_eq_self.mpr fun f hf => decide_eq_true (h.numbers f hf)

/-! ### Frames that carry no event -/

theorem sendOthers_eq (c n : Nat) (k : Conn) :
    ∃ new, Conn.sendOthers c n k = { k with
      sequence := k.sequence + n
      frames := k.frames ++ new } ∧
      ∀ f ∈ new, k.sequence < f.number ∧ f.number ≤ k.sequence + n ∧ f.sender = c ∧
        f.event = none := by
  induction n generalizing k with
  | zero => exact ⟨[], by simp [Conn.sendOthers], by simp⟩
  | succ n ih =>
      obtain ⟨new, hnew, hfresh⟩ := ih (k.send c none)
      have hseq : k.sequence + 1 + n = k.sequence + (n + 1) := by omega
      refine ⟨{ number := k.sequence + 1, sender := c } :: new, ?_, fun f hf => ?_⟩
      · rw [Conn.sendOthers, hnew, Conn.send, hseq, List.append_assoc]
        rfl
      · rcases List.mem_cons.mp hf with rfl | hf
        · exact ⟨Nat.lt_succ_self _, by dsimp only; omega, rfl, rfl⟩
        · obtain ⟨hlt, hle, hrest⟩ := hfresh f hf
          have hsend : (k.send c none).sequence = k.sequence + 1 := rfl
          rw [hsend] at hlt hle
          exact ⟨by omega, by omega, hrest⟩

theorem extends_sendOthers (c n : Nat) (k : Conn) : Extends c k (Conn.sendOthers c n k) := by
  obtain ⟨new, hnew, hfresh⟩ := sendOthers_eq c n k
  rw [hnew]
  exact ⟨⟨new, rfl, fun f hf => ⟨(hfresh f hf).1, (hfresh f hf).2.2.1⟩⟩, Nat.le_add_right _ _⟩

theorem PositionOk.others {frames new : List Frame} {p : Position} (h : PositionOk w frames p)
    (hnew : ∀ f ∈ new, f.event = none) : PositionOk w (frames ++ new) p := by
  have hsent (t : Topic) : sent (frames ++ new) t = sent frames t := by
    rw [sent_append, sent_others hnew, List.append_nil]
  exact {
    nodup := h.nodup
    cursor_le := h.cursor_le
    sent_le := fun t => hsent t ▸ h.sent_le t
    sent_le_cursor := fun t => hsent t ▸ h.sent_le_cursor t
    ordered := fun t => hsent t ▸ h.ordered t
    none_lost := fun t => hsent t ▸ h.none_lost t }

theorem ConnOk.sendOthers (h : ConnOk w k) (c n : Nat) : ConnOk w (Conn.sendOthers c n k) := by
  obtain ⟨new, hnew, hfresh⟩ := sendOthers_eq c n k
  have hnone : ∀ f ∈ new, f.event = none := fun f hf => (hfresh f hf).2.2.2
  rw [hnew]
  exact {
    position := h.position.others hnone
    numbers := by
      intro f hf
      rcases List.mem_append.mp hf with hf | hf
      · exact (h.numbers f hf).trans (Nat.le_add_right _ _)
      · exact (hfresh f hf).2.1
    idle := h.idle
    inbox_le := h.inbox_le
    pending_le := h.pending_le
    pending_ordered := h.pending_ordered
    unsent := by
      intro i hi m hm
      rw [sent_append, sent_others hnone, List.append_nil] at hm
      exact h.unsent i hi m hm
    contiguous := h.contiguous
    waiting := h.waiting }

theorem sendOthers_withPosition (c n : Nat) (k : Conn) (f : Position → Position) :
    Conn.sendOthers c n (k.withPosition f) = (Conn.sendOthers c n k).withPosition f := by
  induction n generalizing k with
  | zero => rfl
  | succ n ih => exact ih (k.send c none)

/-! ### Subscriptions -/

/-- Topics go away, or one comes at the end of its stream. The cursors of the
others stay. -/
structure Resubscribes (w : Streams) (p p' : Position) : Prop where
  nodup : p.topics.Nodup → p'.topics.Nodup
  cursor_le : (∀ t, p.cursors t ≤ w.seqs t) → ∀ t, p'.cursors t ≤ w.seqs t
  topics : ∀ t ∈ p'.topics, t ∈ p.topics ∧ p'.cursors t = p.cursors t ∧ p'.base t = p.base t ∨
    p'.cursors t = w.seqs t ∧ p'.base t = w.seqs t
  passed : p'.passed = p.passed

theorem resubscribes_refl (w : Streams) (p : Position) : Resubscribes w p p where
  nodup := id
  cursor_le := id
  topics _ ht := .inl ⟨ht, rfl, rfl⟩
  passed := rfl

theorem resubscribes_unsubscribe (w : Streams) (p : Position) (t : Topic) :
    Resubscribes w p (p.unsubscribe t) where
  nodup h := h.erase t
  cursor_le := id
  topics _ hu := .inl ⟨List.mem_of_mem_erase hu, rfl, rfl⟩
  passed := rfl

theorem resubscribes_control (w : Streams) (p : Position) (joined : Bool)
    (hnodup : p.topics.Nodup) (control : Option Control) :
    Resubscribes w p (p.control w joined control) := by
  cases control with
  | none => exact resubscribes_refl w p
  | some control =>
      cases control with
      | delete t =>
          rw [Position.control]
          split
          · exact {
              nodup := fun h => h.erase t
              cursor_le := by
                intro h u
                by_cases hu : u = t
                · subst hu
                  simp
                · simpa [Function.update_of_ne hu] using h u
              topics := by
                intro u hu
                have hne : u ≠ t := by
                  rintro rfl
                  exact hnodup.not_mem_erase hu
                exact .inl ⟨List.mem_of_mem_erase hu, Function.update_of_ne hne _ _, rfl⟩
              passed := rfl }
          · exact resubscribes_refl w p
      | create t =>
          rw [Position.control]
          split
          · rename_i h
            exact {
              nodup := fun hp => List.nodup_append.mpr ⟨hp, List.nodup_singleton t, by
                rintro a ha b hb rfl
                exact h.2 (List.mem_singleton.mp hb ▸ ha)⟩
              cursor_le := by
                intro hp u
                by_cases hu : u = t
                · subst hu
                  simp
                · simpa [Function.update_of_ne hu] using hp u
              topics := by
                intro u hu
                by_cases hut : u = t
                · subst hut
                  exact .inr ⟨Function.update_self .., Function.update_self ..⟩
                · refine .inl ⟨?_, Function.update_of_ne hut _ _, Function.update_of_ne hut _ _⟩
                  rcases List.mem_append.mp hu with hu | hu
                  · exact hu
                  · exact absurd (List.mem_singleton.mp hu) hut
              passed := rfl }
          · exact resubscribes_refl w p

theorem PositionOk.resubscribe {frames : List Frame} {p p' : Position} (hw : StreamsOk w)
    (h : PositionOk w frames p) (hp : Resubscribes w p p') : PositionOk w frames p' where
  nodup := hp.nodup h.nodup
  cursor_le := hp.cursor_le h.cursor_le
  sent_le := h.sent_le
  sent_le_cursor t ht n hn := by
    rcases hp.topics t ht with ⟨hold, hcursor, -⟩ | ⟨hcursor, -⟩
    · rw [hcursor]
      exact h.sent_le_cursor t hold n hn
    · rw [hcursor]
      exact h.sent_le t n hn
  ordered := h.ordered
  none_lost t ht e he hbase hcur := by
    rcases hp.topics t ht with ⟨hold, hcursor, hb⟩ | ⟨-, hb⟩
    · rw [hp.passed]
      exact h.none_lost t hold e he (hb ▸ hbase) (hcursor ▸ hcur)
    · exact absurd (hw.le t e he) (not_le.mpr (hb ▸ hbase))

theorem ConnOk.resubscribe (hw : StreamsOk w) (h : ConnOk w k) {f : Position → Position}
    (hp : Resubscribes w k.position (f k.position)) : ConnOk w (k.withPosition f) where
  position := h.position.resubscribe hw hp
  numbers := h.numbers
  idle := h.idle
  inbox_le := h.inbox_le
  pending_le := h.pending_le
  pending_ordered := h.pending_ordered
  unsent := h.unsent
  contiguous i hi ht e he hcur hlt := by
    rcases hp.topics _ ht with ⟨hold, hcursor, -⟩ | ⟨hcursor, -⟩
    · exact h.contiguous i hi hold e he (hcursor ▸ hcur) hlt
    · exact absurd (hw.le _ e he) (not_le.mpr (hcursor ▸ hcur))
  waiting hopen t ht e he hcur := by
    rcases hp.topics t ht with ⟨hold, hcursor, -⟩ | ⟨hcursor, -⟩
    · exact h.waiting hopen t hold e he (hcursor ▸ hcur)
    · exact absurd (hw.le t e he) (not_le.mpr (hcursor ▸ hcur))

end

/-! ### An event of a topic -/

section

variable {w : Streams} {c : Nat} {k : Conn} {t : Topic} {e : Event} {rest : List (Topic × Event)}

/-- An event the connection is already past. -/
theorem ConnOk.skip (h : ConnOk w k) (hpending : k.pending = (t, e) :: rest)
    (hcur : e.seq ≤ k.position.cursors t) : ConnOk w { k with pending := rest } := by
  have hmem {i : Topic × Event} (hi : i ∈ rest) : i ∈ k.pending := by
    rw [hpending]
    exact List.mem_cons_of_mem _ hi
  have hrest {u : Topic} {d : Event} (hd : (u, d) ∈ k.pending)
      (hlt : k.position.cursors u < d.seq) : (u, d) ∈ rest := by
    rw [hpending] at hd
    rcases List.mem_cons.mp hd with heq | hd
    · obtain ⟨rfl, rfl⟩ := Prod.mk.inj heq
      exact absurd hcur (not_le.mpr hlt)
    · exact hd
  exact {
    position := h.position
    numbers := h.numbers
    idle := fun hidle => absurd (h.idle hidle) (by simp [hpending])
    inbox_le := h.inbox_le
    pending_le := fun i hi => h.pending_le i (hmem hi)
    pending_ordered := (List.pairwise_cons.mp (hpending ▸ h.pending_ordered)).2
    unsent := fun i hi => h.unsent i (hmem hi)
    contiguous := fun i hi ht d hd hlt hbefore =>
      hrest (h.contiguous i (hmem hi) ht d hd hlt hbefore) hlt
    waiting := fun hopen u hu d hd hlt =>
      (h.waiting hopen u hu d hd hlt).imp_left fun hmem => hrest hmem hlt }

/-- The connection goes past the next event, and the event is sent or marked. -/
theorem ConnOk.advance (h : ConnOk w k) (hpending : k.pending = (t, e) :: rest)
    (hcur : k.position.cursors t < e.seq) {frames : List Frame} {sequence : Nat}
    {passed : List (Topic × Nat)}
    (hsent : ∀ u, sent frames u = sent k.frames u ∨
      u = t ∧ sent frames u = sent k.frames u ++ [e.seq])
    (hnumbers : ∀ f ∈ frames, f.number ≤ sequence) (hpassed : k.position.passed ⊆ passed)
    (hdone : e.seq ∈ sent frames t ∨ (t, e.seq) ∈ passed) :
    ConnOk w { k with
      sequence, frames
      pending := rest
      position := { k.position.advance t e.seq with passed } } := by
  have hhead : (t, e) ∈ k.pending := by
    rw [hpending]
    exact List.mem_cons_self
  have hmem {i : Topic × Event} (hi : i ∈ rest) : i ∈ k.pending := by
    rw [hpending]
    exact List.mem_cons_of_mem _ hi
  obtain ⟨hafter, hordered⟩ := List.pairwise_cons.mp (hpending ▸ h.pending_ordered)
  have hcursor (u : Topic) : k.position.cursors u ≤ (k.position.advance t e.seq).cursors u := by
    by_cases hu : u = t
    · subst hu
      simpa [Position.advance] using hcur.le
    · simp [Position.advance, Function.update_of_ne hu]
  have hrest {u : Topic} {d : Event} (hd : (u, d) ∈ k.pending)
      (hlt : (k.position.advance t e.seq).cursors u < d.seq) : (u, d) ∈ rest := by
    rw [hpending] at hd
    rcases List.mem_cons.mp hd with heq | hd
    · obtain ⟨rfl, rfl⟩ := Prod.mk.inj heq
      exact absurd hlt (by simp [Position.advance])
    · exact hd
  have hof {u : Topic} {n : Nat} (hn : n ∈ sent frames u) :
      n ∈ sent k.frames u ∨ u = t ∧ n = e.seq := by
    rcases hsent u with heq | ⟨hu, heq⟩
    · exact .inl (heq ▸ hn)
    · rw [heq] at hn
      exact (List.mem_append.mp hn).imp_right fun hn => ⟨hu, List.mem_singleton.mp hn⟩
  have hkeep {u : Topic} {n : Nat} (hn : n ∈ sent k.frames u) : n ∈ sent frames u := by
    rcases hsent u with heq | ⟨-, heq⟩
    · exact heq ▸ hn
    · rw [heq]
      exact List.mem_append_left _ hn
  refine {
    position := {
      nodup := h.position.nodup
      cursor_le := ?_
      sent_le := ?_
      sent_le_cursor := ?_
      ordered := ?_
      none_lost := ?_ }
    numbers := hnumbers
    idle := fun hidle => absurd (h.idle hidle) (by simp [hpending])
    inbox_le := h.inbox_le
    pending_le := fun i hi => h.pending_le i (hmem hi)
    pending_ordered := hordered
    unsent := ?_
    contiguous := fun i hi ht d hd hlt hbefore =>
      hrest (h.contiguous i (hmem hi) ht d hd ((hcursor _).trans_lt hlt) hbefore) hlt
    waiting := fun hopen u hu d hd hlt =>
      (h.waiting hopen u hu d hd ((hcursor u).trans_lt hlt)).imp_left fun hmem => hrest hmem hlt }
  · intro u
    by_cases hu : u = t
    · subst hu
      simpa [Position.advance] using h.pending_le _ hhead
    · simpa [Position.advance, Function.update_of_ne hu] using h.position.cursor_le u
  · intro u n hn
    rcases hof hn with hn | ⟨rfl, rfl⟩
    · exact h.position.sent_le u n hn
    · exact h.pending_le _ hhead
  · intro u hu n hn
    rcases hof hn with hn | ⟨rfl, rfl⟩
    · exact (h.position.sent_le_cursor u hu n hn).trans (hcursor u)
    · simp [Position.advance]
  · intro u
    rcases hsent u with heq | ⟨rfl, heq⟩
    · exact heq ▸ h.position.ordered u
    · rw [heq]
      refine List.pairwise_append.mpr ⟨h.position.ordered u, List.pairwise_singleton _ _, ?_⟩
      intro n hn m hm
      obtain rfl := List.mem_singleton.mp hm
      exact h.unsent _ hhead n hn
  · intro u hu d hd hbase hle
    by_cases hold : d.seq ≤ k.position.cursors u
    · exact (h.position.none_lost u hu d hd hbase hold).imp hkeep fun hmem => hpassed hmem
    · have hut : u = t := by
        by_contra hne
        exact hold (by simpa [Position.advance, Function.update_of_ne hne] using hle)
      subst hut
      have hle' : d.seq ≤ e.seq := by simpa [Position.advance] using hle
      rcases hle'.eq_or_lt with heq | hlt
      · rw [heq]
        exact hdone
      · have hin := h.contiguous _ hhead hu d hd (not_le.mp hold) hlt
        rw [hpending] at hin
        rcases List.mem_cons.mp hin with heq | hin
        · obtain rfl := (Prod.mk.inj heq).2
          exact absurd hlt (lt_irrefl _)
        · exact absurd (hafter _ hin rfl) hlt.asymm
  · intro i hi n hn
    rcases hof hn with hn | ⟨hit, rfl⟩
    · exact h.unsent i (hmem hi) n hn
    · exact hafter i hi hit.symm

end

theorem sendOthers_pending (c n : Nat) (k : Conn) (pending : List (Topic × Event)) :
    Conn.sendOthers c n { k with pending } = { Conn.sendOthers c n k with pending } := by
  induction n generalizing k with
  | zero => rfl
  | succ n ih => exact ih (k.send c none)

section

variable {w : Streams} {user t : Topic} {c : Nat} {k : Conn} {e : Event}
  {rest : List (Topic × Event)}

theorem extends_of_frames {k' : Conn} (hframes : k'.frames = k.frames)
    (hsequence : k'.sequence = k.sequence) : Extends c k k' where
  frames := ⟨[], by rw [hframes, List.append_nil], by simp⟩
  sequence := hsequence.ge

/-- An event that is expired or not visible. -/
theorem ConnOk.deliver_hidden (h : ConnOk w k) (hpending : k.pending = (t, e) :: rest)
    (hcur : k.position.cursors t < e.seq) :
    ConnOk w (({ k with pending := rest } : Conn).withPosition fun p =>
      { p.advance t e.seq with passed := p.passed ++ [(t, e.seq)] }) :=
  h.advance hpending hcur (fun _ => .inl rfl) h.numbers (List.subset_append_left _ _)
    (.inr (List.mem_append_right _ (List.mem_singleton_self _)))

/-- An event that is sent. -/
theorem ConnOk.deliver_visible (h : ConnOk w k) (hpending : k.pending = (t, e) :: rest)
    (hcur : k.position.cursors t < e.seq) :
    ConnOk w ((({ k with pending := rest } : Conn).send c (some (t, e.seq))).withPosition fun p =>
      p.advance t e.seq) := by
  have hone (u : Topic) : sent [{ number := k.sequence + 1, sender := c, event := some (t, e.seq) }]
      u = if t = u then [e.seq] else [] := by
    by_cases hu : t = u <;> simp [sent, hu]
  refine h.advance hpending hcur (fun u => ?_) ?_ (List.Subset.refl _) (.inl ?_)
  · dsimp only [Conn.send]
    rw [sent_append, hone]
    by_cases hu : t = u
    · exact .inr ⟨hu.symm, by rw [if_pos hu]⟩
    · exact .inl (by rw [if_neg hu, List.append_nil])
  · intro f hf
    rcases List.mem_append.mp hf with hf | hf
    · exact (h.numbers f hf).trans (Nat.le_succ _)
    · obtain rfl := List.mem_singleton.mp hf
      exact le_rfl
  · dsimp only [Conn.send]
    rw [sent_append, hone, if_pos rfl]
    exact List.mem_append_right _ (List.mem_singleton_self _)

theorem ConnOk.unsubscribe_unless (hw : StreamsOk w) (h : ConnOk w k) (member : Bool) :
    ConnOk w (k.withPosition fun p => if member then p else p.unsubscribe t) := by
  refine h.resubscribe hw ?_
  split
  · exact resubscribes_refl w _
  · exact resubscribes_unsubscribe w _ t

theorem ConnOk.control (hw : StreamsOk w) (h : ConnOk w k) (applies : Prop) [Decidable applies]
    (joined : Bool) (control : Option Control) :
    ConnOk w (k.withPosition fun p => if applies then p.control w joined control else p) := by
  refine h.resubscribe hw ?_
  split
  · exact resubscribes_control w _ joined h.position.nodup control
  · exact resubscribes_refl w _

theorem sendOthers_position (c n : Nat) (k : Conn) :
    (Conn.sendOthers c n k).position = k.position := by
  obtain ⟨new, hnew, -⟩ := sendOthers_eq c n k
  rw [hnew]

theorem control_passed (p : Position) (w : Streams) (joined : Bool) (control : Option Control) :
    (p.control w joined control).passed = p.passed := by
  rcases control with _ | _ | _
  · rfl
  · rw [Position.control]
    split <;> rfl
  · rw [Position.control]
    split <;> rfl

/-- A delivery does not touch the marks. -/
theorem deliverTopicEvent_passed (w : Streams) (user : Topic) (c : Nat) (k : Conn) (t : Topic)
    (e : Event) (v : Verdict) :
    (deliverTopicEvent w user c k t e v).position.passed = k.position.passed := by
  rw [deliverTopicEvent]
  split
  · rfl
  split
  · rfl
  split
  · dsimp only [Conn.withPosition, Conn.send]
    split
    · rw [control_passed, sendOthers_position]
      split <;> rfl
    · rw [sendOthers_position]
      split <;> rfl
  · rw [sendOthers_position]
    dsimp only [Conn.withPosition]
    split <;> rfl

/-- An event that is sent after the frames on changed access. -/
theorem ConnOk.deliver_sent (hw : StreamsOk w) (h : ConnOk w k)
    (hpending : k.pending = (t, e) :: rest) (hcur : k.position.cursors t < e.seq) {v : Verdict}
    (hexpired : v.expired = false) (hvisible : v.visible = true) :
    ConnOk w (deliverTopicEvent w user c { k with pending := rest } t e v) := by
  -- the other frames come first, so the event is the next of what they leave
  have hothers := h.sendOthers c v.extra
  have hsame : (Conn.sendOthers c v.extra k).pending = (t, e) :: rest ∧
      (Conn.sendOthers c v.extra k).position = k.position := by
    obtain ⟨new, hnew, -⟩ := sendOthers_eq c v.extra k
    rw [hnew]
    exact ⟨hpending, rfl⟩
  have hsent := (hothers.deliver_visible (c := c) hsame.1 (hsame.2 ▸ hcur)).unsubscribe_unless
    (t := t) hw v.member
  have hcontrol := hsent.control hw (t = user) v.joined e.control
  rw [deliverTopicEvent, if_neg (not_le.mpr hcur), hexpired, if_neg Bool.false_ne_true, hvisible,
    if_pos rfl, sendOthers_withPosition, sendOthers_pending]
  refine cast (congrArg (ConnOk w) ?_) hcontrol
  cases v.member <;> rfl

/-- An event that the verdict hides. -/
theorem ConnOk.deliver_unsent (hw : StreamsOk w) (h : ConnOk w k)
    (hpending : k.pending = (t, e) :: rest) (hcur : k.position.cursors t < e.seq) {v : Verdict}
    (hhidden : v.expired = true ∨ v.visible = false) :
    ConnOk w ((deliverTopicEvent w user c { k with pending := rest } t e v).withPosition fun p =>
      { p with passed := k.position.passed ++ [(t, e.seq)] }) := by
  have hmarked := h.deliver_hidden hpending hcur
  rw [deliverTopicEvent, if_neg (not_le.mpr hcur)]
  split
  · exact hmarked
  · rename_i hexpired
    rw [hhidden.resolve_left hexpired, if_neg Bool.false_ne_true, ← sendOthers_withPosition]
    refine cast (congrArg (ConnOk w) ?_)
      ((hmarked.unsubscribe_unless (t := t) hw v.member).sendOthers c v.extra)
    cases v.member <;> rfl

/-- What a delivery makes of a connection, with the mark that the verdict
asks for. -/
theorem ConnOk.deliver (hw : StreamsOk w) (h : ConnOk w k)
    (hpending : k.pending = (t, e) :: rest) (v : Verdict) :
    ConnOk w ((deliverTopicEvent w user c { k with pending := rest } t e v).withPosition fun p =>
      { p with passed := k.position.passed ++ hiddenBy k.position t e v }) := by
  have hkept (hsame : ConnOk w (deliverTopicEvent w user c { k with pending := rest } t e v)) :
      ConnOk w ((deliverTopicEvent w user c { k with pending := rest } t e v).withPosition
        fun p => { p with passed := k.position.passed ++ [] }) := by
    have hpassed := deliverTopicEvent_passed w user c { k with pending := rest } t e v
    rw [List.append_nil, ← hpassed]
    exact hsame
  by_cases hcur : k.position.cursors t < e.seq
  · by_cases hhidden : v.expired = true ∨ v.visible = false
    · rw [hiddenBy, if_pos ⟨hcur, hhidden⟩]
      exact h.deliver_unsent hw hpending hcur hhidden
    · rw [hiddenBy, if_neg fun hboth => hhidden hboth.2]
      obtain ⟨hexpired, hvisible⟩ := not_or.mp hhidden
      exact hkept (h.deliver_sent hw hpending hcur (Bool.eq_false_of_not_eq_true hexpired)
        (Bool.eq_true_of_not_eq_false hvisible))
  · rw [hiddenBy, if_neg fun hboth => hcur hboth.1]
    refine hkept ?_
    rw [deliverTopicEvent, if_pos (not_lt.mp hcur)]
    exact h.skip hpending (not_lt.mp hcur)

end

/-! ## Reading the streams -/

section

variable {w : Streams} {p : Position} {expired : List (Topic × Nat)} {topics : List Topic}
  {pending : List (Topic × Event)}

/-- What a replay takes of a topic. -/
def taken (w : Streams) (p : Position) (expired : List (Topic × Nat)) (t : Topic) :
    List (Topic × Event) :=
  (afterCursor w p expired t).map (t, ·)

theorem mem_taken {t : Topic} {i : Topic × Event} :
    i ∈ taken w p expired t ↔ i.1 = t ∧ i.2 ∈ w.entries i.1 ∧ (i.1, i.2.seq) ∉ expired ∧
      p.cursors i.1 < i.2.seq := by
  rw [taken, List.mem_map]
  constructor
  · rintro ⟨e, he, rfl⟩
    rw [afterCursor, List.mem_filter, decide_eq_true_iff] at he
    exact ⟨rfl, he.1, he.2⟩
  · rintro ⟨rfl, he, hseq⟩
    exact ⟨i.2, List.mem_filter.mpr ⟨he, decide_eq_true hseq⟩, rfl⟩

theorem pendingOf_eq {t : Topic} (h : pendingOf w p expired t = some pending) :
    pending = taken w p expired t := by
  rw [pendingOf] at h
  rw [taken]
  split at h
  · rename_i hnil
    rw [hnil, ← Option.some.inj h]
    rfl
  · rename_i e es hcons
    split at h
    · exact absurd h (by simp)
    · rw [hcons, ← Option.some.inj h]

theorem collect_eq (h : collect w p expired topics = some pending) :
    pending = topics.flatMap (taken w p expired) := by
  induction topics generalizing pending with
  | nil => exact (Option.some.inj h).symm
  | cons t ts ih =>
      rw [collect] at h
      split at h
      · exact absurd h (by simp)
      · rename_i first hfirst
        obtain ⟨rest, hrest, rfl⟩ := Option.map_eq_some_iff.mp h
        rw [List.flatMap_cons, pendingOf_eq hfirst, ih hrest]

theorem mem_replay (h : replayTopicEvents w p expired topics = some pending)
    {i : Topic × Event} : i ∈ pending ↔ i.1 ∈ topics ∧ i.2 ∈ w.entries i.1 ∧
      (i.1, i.2.seq) ∉ expired ∧ p.cursors i.1 < i.2.seq := by
  obtain ⟨l, hl, rfl⟩ := Option.map_eq_some_iff.mp h
  rw [Paging.mem_sortedBy, collect_eq hl, List.mem_flatMap]
  constructor
  · rintro ⟨t, ht, hi⟩
    obtain ⟨rfl, hrest⟩ := mem_taken.mp hi
    exact ⟨ht, hrest⟩
  · rintro ⟨ht, hrest⟩
    exact ⟨i.1, ht, mem_taken.mpr ⟨rfl, hrest⟩⟩

/-- Two entries of a stream are in the same order by id and by number. -/
theorem StreamsOk.seq_lt (hw : StreamsOk w) {t : Topic} {a b : Event} (ha : a ∈ w.entries t)
    (hb : b ∈ w.entries t) (hid : a.id ≤ b.id) (hne : a ≠ b) : a.seq < b.seq := by
  have hboth : (w.entries t).Pairwise fun a b => a ≠ b → a.id ≤ b.id → a.seq < b.seq :=
    (hw.sorted t).imp fun h _ _ => h.2
  have hback : (w.entries t).Pairwise fun a b => b ≠ a → b.id ≤ a.id → b.seq < a.seq :=
    (hw.sorted t).imp fun h _ hid => absurd hid (not_le.mpr h.1)
  exact hboth.forall_of_forall_of_flip (fun _ _ h => absurd rfl h) hback ha hb hne hid

theorem nodup_taken (hw : StreamsOk w) (hnodup : topics.Nodup) :
    (topics.flatMap (taken w p expired)).Nodup := by
  refine List.nodup_flatMap.mpr ⟨fun t _ => ?_, hnodup.imp fun hne => ?_⟩
  · have hentries : (w.entries t).Nodup := by
      refine (hw.sorted t).imp fun h => ?_
      rintro rfl
      exact lt_irrefl _ h.2
    exact (hentries.filter _).map fun a b h => (Prod.mk.inj h).2
  · intro i hi hj
    exact hne ((mem_taken.mp hi).1.symm.trans (mem_taken.mp hj).1)

theorem replay_ordered (hw : StreamsOk w) (hnodup : topics.Nodup)
    (h : replayTopicEvents w p expired topics = some pending) :
    pending.Pairwise fun a b => a.1 = b.1 → a.2.seq < b.2.seq := by
  have hmem := fun i : Topic × Event => (mem_replay h (i := i)).mp
  obtain ⟨l, hl, rfl⟩ := Option.map_eq_some_iff.mp h
  have hdistinct : (Paging.sortedBy (fun i : Topic × Event => i.2.id) l).Nodup := by
    rw [Paging.perm_sortedBy.nodup_iff, collect_eq hl]
    exact nodup_taken hw hnodup
  refine (Paging.pairwise_le_sortedBy.and hdistinct).imp_of_mem ?_
  rintro ⟨t, a⟩ ⟨u, b⟩ ha hb ⟨hid, hne⟩ rfl
  exact hw.seq_lt (hmem _ ha).2.1 (hmem _ hb).2.1 hid fun hab => hne (congrArg (Prod.mk t) hab)

theorem mem_purge {t : Topic} {e : Event} (ht : t ∈ topics) :
    e ∈ (w.purge topics expired).entries t ↔ e ∈ w.entries t ∧ (t, e.seq) ∉ expired := by
  rw [Streams.purge]
  dsimp only
  rw [if_pos ht, List.mem_filter, decide_eq_true_iff]

/-- A connection that is about to send what a replay gave. -/
theorem ConnOk.replayed {k : Conn} (hw : StreamsOk w)
    (h : replayTopicEvents w k.position expired topics = some k.pending)
    (hposition : PositionOk w k.frames k.position)
    (hnumbers : ∀ f ∈ k.frames, f.number ≤ k.sequence)
    (hinbox : ∀ i ∈ k.inbox, i.2.seq ≤ w.seqs i.1) (hphase : k.phase ≠ .idle)
    (hnodup : topics.Nodup) (hsub : topics ⊆ k.position.topics)
    (hwaiting : k.isOpen = true → ∀ t ∈ k.position.topics, t ∉ topics → ∀ e ∈ w.entries t,
      k.position.cursors t < e.seq → (t, e) ∈ k.inbox) :
    ConnOk (w.purge topics expired) k := by
  have hshrinks : Shrinks w (w.purge topics expired) := shrinks_purge topics expired
  have htake {t : Topic} (ht : t ∈ topics) {e : Event}
      (he : e ∈ (w.purge topics expired).entries t) (hlt : k.position.cursors t < e.seq) :
      (t, e) ∈ k.pending := by
    obtain ⟨he, hexpired⟩ := (mem_purge ht).mp he
    exact (mem_replay h).mpr ⟨ht, he, hexpired, hlt⟩
  exact {
    position := hposition.shrink hshrinks
    numbers := hnumbers
    idle := fun hidle => absurd hidle hphase
    inbox_le := hinbox
    pending_le := fun i hi => hw.le _ _ ((mem_replay h).mp hi).2.1
    pending_ordered := replay_ordered hw hnodup h
    unsent := by
      intro i hi n hn
      obtain ⟨ht, -, -, hlt⟩ := (mem_replay h).mp hi
      exact (hposition.sent_le_cursor _ (hsub ht) n hn).trans_lt hlt
    contiguous := fun i hi _ e he hlt _ => htake ((mem_replay h).mp hi).1 he hlt
    waiting := by
      intro hopen t ht e he hlt
      by_cases hmem : t ∈ topics
      · exact .inl (htake hmem he hlt)
      · exact .inr (hwaiting hopen t ht hmem e ((hshrinks.entries t).subset he) hlt) }

end

/-! ## Messages -/

section

variable {w : Streams} {k : Conn} {t : Topic} {e : Event} {inbox : List (Topic × Event)}

/-- A message of a topic that the connection has left. -/
theorem ConnOk.ignore (h : ConnOk w k) (hinbox : k.inbox = (t, e) :: inbox)
    (ht : t ∉ k.position.topics) : ConnOk w { k with inbox } where
  position := h.position
  numbers := h.numbers
  idle := h.idle
  inbox_le i hi := h.inbox_le i (hinbox ▸ List.mem_cons_of_mem _ hi)
  pending_le := h.pending_le
  pending_ordered := h.pending_ordered
  unsent := h.unsent
  contiguous := h.contiguous
  waiting hopen u hu d hd hlt := by
    refine (h.waiting hopen u hu d hd hlt).imp_right fun hmem => ?_
    rw [hinbox] at hmem
    rcases List.mem_cons.mp hmem with heq | hmem
    · exact absurd ((Prod.mk.inj heq).1 ▸ hu) ht
    · exact hmem

/-- A message is next in its topic, or the connection is past it. -/
theorem ConnOk.next (h : ConnOk w k) (hinbox : k.inbox = (t, e) :: inbox) (hidle : k.phase = .idle)
    (ht : t ∈ k.position.topics) {pending : List (Topic × Event)}
    (hpending : pending = [] ∧ e.seq ≤ k.position.cursors t ∨
      pending = [(t, e)] ∧ e.seq = k.position.cursors t + 1) :
    ConnOk w { k with inbox, pending, phase := .working } := by
  have hall (i : Topic × Event) (hi : i ∈ pending) :
      i = (t, e) ∧ e.seq = k.position.cursors t + 1 := by
    rcases hpending with ⟨rfl, -⟩ | ⟨rfl, hnext⟩
    · exact absurd hi (by simp)
    · exact ⟨List.mem_singleton.mp hi, hnext⟩
  exact {
    position := h.position
    numbers := h.numbers
    idle := fun hworking => absurd hworking (by simp)
    inbox_le := fun i hi => h.inbox_le i (hinbox ▸ List.mem_cons_of_mem _ hi)
    pending_le := by
      intro i hi
      obtain ⟨rfl, -⟩ := hall i hi
      exact h.inbox_le _ (hinbox ▸ List.mem_cons_self)
    pending_ordered := by
      rcases hpending with ⟨rfl, -⟩ | ⟨rfl, -⟩
      · exact .nil
      · exact List.pairwise_singleton _ _
    unsent := by
      intro i hi n hn
      obtain ⟨rfl, hnext⟩ := hall i hi
      have := h.position.sent_le_cursor t ht n hn
      dsimp only
      omega
    contiguous := by
      intro i hi _ d _ hlt hbefore
      obtain ⟨rfl, hnext⟩ := hall i hi
      dsimp only at hlt hbefore
      omega
    waiting := by
      intro hopen u hu d hd hlt
      rcases h.waiting hopen u hu d hd hlt with hmem | hmem
      · rw [h.idle hidle] at hmem
        exact absurd hmem (by simp)
      rw [hinbox] at hmem
      rcases List.mem_cons.mp hmem with heq | hmem
      · obtain ⟨rfl, rfl⟩ := Prod.mk.inj heq
        rcases hpending with ⟨-, hle⟩ | ⟨rfl, -⟩
        · exact absurd hle (not_le.mpr hlt)
        · exact .inl List.mem_cons_self
      · exact .inr hmem }

theorem ConnOk.close (h : ConnOk w k) (hinbox : inbox ⊆ k.inbox) :
    ConnOk w { k with inbox, isOpen := false } where
  position := h.position
  numbers := h.numbers
  idle := h.idle
  inbox_le i hi := h.inbox_le i (hinbox hi)
  pending_le := h.pending_le
  pending_ordered := h.pending_ordered
  unsent := h.unsent
  contiguous := h.contiguous
  waiting hopen := absurd hopen (by simp)

theorem ConnOk.settled (h : ConnOk w k) (hpending : k.pending = []) :
    ConnOk w { k with phase := .idle } where
  position := h.position
  numbers := h.numbers
  idle _ := hpending
  inbox_le := h.inbox_le
  pending_le := h.pending_le
  pending_ordered := h.pending_ordered
  unsent := h.unsent
  contiguous := h.contiguous
  waiting := h.waiting

end

end Gateway

end Kaede
