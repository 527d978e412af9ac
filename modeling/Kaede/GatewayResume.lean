import Kaede.GatewayConn

/-!
# What a client gets over its connections

The client of a connection has the frames of `Conn.frames`: those it had when
it named a number, and those sent since. It has every event of a topic at most
once and in order, and what the connection has gone past it has, unless the
event was expired or not visible; what the connection has not gone past waits
in its queues.

This rests on the entry that a RESUME reads. Numbers begin again at the one
that was named, but nothing is stored before the replay is over, and the
entries of the connection before stay. A client that got part of a replay and
names its last number is taken to where that connection was at the number. So
the statement is about runs in which the entry was written by the connection
that sent the frame.
-/

namespace Kaede

namespace Gateway

/-! ## The session -/

/-- The entry of a number fits the frames of its writer up to there. -/
def ProgressOk (s : State) (q : Nat) (p : Progress) : Prop :=
  ∃ k, s.conns p.writer = some k ∧ q ≤ k.sequence ∧
    PositionOk s.streams (upTo q k.frames) p.position

structure Ok (s : State) : Prop where
  streams : StreamsOk s.streams
  conns : ∀ c k, s.conns c = some k → ConnOk s.streams k
  /-- A client and the connection that sent it a frame agree up to the frame. -/
  lineage : ∀ c k, s.conns c = some k → ∀ f ∈ k.frames, ∃ k', s.conns f.sender = some k' ∧
    f.number ≤ k'.sequence ∧ upTo f.number k'.frames = upTo f.number k.frames
  stored : ProgressOk s s.sequence s.stored
  progress : ∀ q p, s.progress q = some p → ProgressOk s q p

/-- The connections go on and nothing is stored. -/
structure Continues (s s' : State) : Prop where
  forward : ∀ c k, s.conns c = some k → ∃ k', s'.conns c = some k' ∧ Extends c k k'
  backward : ∀ c k', s'.conns c = some k' → ∃ k, s.conns c = some k ∧ Extends c k k'
  position : ∀ frames p, PositionOk s.streams frames p → PositionOk s'.streams frames p
  sequence : s'.sequence = s.sequence
  stored : s'.stored = s.stored
  progress : s'.progress = s.progress

section

variable {s s' : State} {c : Nat} {k k' : Conn}

theorem ProgressOk.continues {q : Nat} {p : Progress} (h : ProgressOk s q p)
    (hs : Continues s s') : ProgressOk s' q p := by
  obtain ⟨k, hk, hq, hp⟩ := h
  obtain ⟨k', hk', hext⟩ := hs.forward _ k hk
  refine ⟨k', hk', hq.trans hext.sequence, ?_⟩
  rw [hext.upTo_eq hq]
  exact hs.position _ _ hp

theorem Ok.continues (h : Ok s) (hs : Continues s s') (hstreams : StreamsOk s'.streams)
    (hconns : ∀ c k, s'.conns c = some k → ConnOk s'.streams k) : Ok s' where
  streams := hstreams
  conns := hconns
  lineage c k' hk' f hf := by
    obtain ⟨k, hk, hext⟩ := hs.backward c k' hk'
    obtain ⟨new, hnew, hfresh⟩ := hext.frames
    rw [hnew] at hf
    rcases List.mem_append.mp hf with hf | hf
    · obtain ⟨a, ha, hle, heq⟩ := h.lineage c k hk f hf
      obtain ⟨a', ha', haext⟩ := hs.forward _ a ha
      refine ⟨a', ha', hle.trans haext.sequence, ?_⟩
      rw [haext.upTo_eq hle, hext.upTo_eq ((h.conns c k hk).numbers f hf), heq]
    · obtain rfl := (hfresh f hf).2
      refine ⟨k', hk', (hconns _ k' hk').numbers f ?_, rfl⟩
      rw [hnew]
      exact List.mem_append_right _ hf
  stored := by
    rw [hs.stored, hs.sequence]
    exact h.stored.continues hs
  progress q p hp := (h.progress q p (hs.progress ▸ hp)).continues hs

/-- The streams lose entries. -/
theorem Ok.shrink {w' : Streams} (h : Ok s) (hw : Shrinks s.streams w') :
    Ok { s with streams := w' } := by
  refine h.continues ?_ (h.streams.shrink hw) fun c k hk => (h.conns c k hk).shrink hw
  exact {
    forward := fun c k hk => ⟨k, hk, .refl c k⟩
    backward := fun c k hk => ⟨k, hk, .refl c k⟩
    position := fun _ _ hp => hp.shrink hw
    sequence := rfl
    stored := rfl
    progress := rfl }

theorem setConn_conns (s : State) (c d : Nat) (k : Conn) :
    (s.setConn c k).conns d = if d = c then some k else s.conns d := Function.update_apply ..

theorem Ok.setConn (h : Ok s) (hk : s.conns c = some k) (hext : Extends c k k')
    (hok : ConnOk s.streams k') : Ok (s.setConn c k') := by
  refine h.continues ?_ h.streams fun d a ha => ?_
  · exact {
      forward := by
        intro d a ha
        rw [setConn_conns]
        split
        · rename_i hd
          subst hd
          obtain rfl := Option.some.inj (hk.symm.trans ha)
          exact ⟨k', rfl, hext⟩
        · exact ⟨a, ha, .refl d a⟩
      backward := by
        intro d a ha
        rw [setConn_conns] at ha
        split at ha
        · rename_i hd
          subst hd
          obtain rfl := Option.some.inj ha
          exact ⟨k, hk, hext⟩
        · exact ⟨a, ha, .refl d a⟩
      position := fun _ _ hp => hp
      sequence := rfl
      stored := rfl
      progress := rfl }
  · rw [setConn_conns] at ha
    split at ha
    · obtain rfl := Option.some.inj ha
      exact hok
    · exact h.conns d a ha

/-- What is stored is where a connection is. -/
theorem Ok.persist (h : Ok s) (hk : s.conns c = some k')
    (hsequence : k'.sequence = k.sequence) (hposition : k'.position = k.position) :
    Ok (s.persistGatewayProgress c k) := by
  have hnow : ProgressOk (s.persistGatewayProgress c k) k.sequence
      { position := k.position, writer := c } := by
    have hok := h.conns c k' hk
    refine ⟨k', hk, hsequence.ge, ?_⟩
    rw [← hsequence, hok.upTo_sequence, ← hposition]
    exact hok.position
  have hold {q : Nat} {p : Progress} (hp : ProgressOk s q p) :
      ProgressOk (s.persistGatewayProgress c k) q p := hp
  exact {
    streams := h.streams
    conns := h.conns
    lineage := h.lineage
    stored := hnow
    progress := by
      intro q p hp
      rw [State.persistGatewayProgress] at hp
      dsimp only at hp
      split at hp
      · exact absurd hp (by simp)
      split at hp
      · rename_i hq
        obtain rfl := Option.some.inj hp
        exact hq ▸ hnow
      · exact hold (h.progress q p hp) }

theorem Ok.settle (h : Ok s) (hk : s.conns c = some k) (hext : Extends c k k')
    (hok : ConnOk s.streams k') : Ok (s.settle c k') :=
  (h.setConn hk hext hok).persist (Function.update_self ..) rfl rfl

theorem Ok.finish (h : Ok s) (hk : s.conns c = some k) (hext : Extends c k k')
    (hok : ConnOk s.streams k') (hpending : k'.pending = []) :
    Ok ((s.setConn c { k' with phase := .idle }).persistGatewayProgress c k') := by
  have hidle : Ok (s.setConn c { k' with phase := .idle }) :=
    h.setConn hk (hext.trans (extends_of_frames rfl rfl)) (hok.settled hpending)
  exact hidle.persist (Function.update_self ..) rfl rfl

/-! ### A new event -/

theorem publish_cases {w w' : Streams} {t : Topic} {id : Nat ×ₗ Nat} {control : Option Control}
    {e : Event} (h : w.publish t id control = some (w', e)) :
    (∀ d ∈ w.entries t, d.id < e.id) ∧ e.seq = w.seqs t + 1 ∧
      (∀ u, w'.seqs u = if u = t then w.seqs t + 1 else w.seqs u) ∧
      ∀ u, w'.entries u = if u = t then w.entries t ++ [e] else w.entries u := by
  rw [Streams.publish] at h
  split at h
  · rename_i hid
    obtain ⟨rfl, rfl⟩ := Prod.mk.inj (Option.some.inj h)
    exact ⟨hid, rfl, fun u => Function.update_apply .., fun u => Function.update_apply ..⟩
  · exact absurd h (by simp)

section

variable {w w' : Streams} {t : Topic} {e : Event}
  (hseqs : ∀ u, w'.seqs u = if u = t then w.seqs t + 1 else w.seqs u)
  (hentries : ∀ u, w'.entries u = if u = t then w.entries t ++ [e] else w.entries u)
  (hseq : e.seq = w.seqs t + 1)

include hseqs in
theorem seqs_le (u : Topic) : w.seqs u ≤ w'.seqs u := by
  rw [hseqs]
  split
  · rename_i hu
    subst hu
    exact Nat.le_succ _
  · exact le_rfl

include hentries in
theorem mem_entries {u : Topic} {d : Event} (hd : d ∈ w'.entries u) :
    d ∈ w.entries u ∨ u = t ∧ d = e := by
  rw [hentries] at hd
  split at hd
  · rename_i hu
    subst hu
    exact (List.mem_append.mp hd).imp_right fun hd => ⟨rfl, List.mem_singleton.mp hd⟩
  · exact .inl hd

include hseqs hentries hseq in
theorem StreamsOk.publish (hw : StreamsOk w) (hid : ∀ d ∈ w.entries t, d.id < e.id) :
    StreamsOk w' where
  sorted u := by
    rw [hentries]
    split
    · refine List.pairwise_append.mpr ⟨hw.sorted t, List.pairwise_singleton _ _, ?_⟩
      intro d hd d' hd'
      obtain rfl := List.mem_singleton.mp hd'
      refine ⟨hid d hd, ?_⟩
      rw [hseq]
      exact Nat.lt_succ_of_le (hw.le t d hd)
    · exact hw.sorted u
  le u d hd := by
    rcases mem_entries hentries hd with hd | ⟨rfl, rfl⟩
    · exact (hw.le u d hd).trans (seqs_le hseqs u)
    · rw [hseqs, if_pos rfl, hseq]

include hseqs hentries hseq in
theorem PositionOk.publish {frames : List Frame} {p : Position} (h : PositionOk w frames p) :
    PositionOk w' frames p where
  nodup := h.nodup
  cursor_le u := (h.cursor_le u).trans (seqs_le hseqs u)
  sent_le u n hn := (h.sent_le u n hn).trans (seqs_le hseqs u)
  sent_le_cursor := h.sent_le_cursor
  ordered := h.ordered
  none_lost u hu d hd hbase hcur := by
    rcases mem_entries hentries hd with hd | ⟨rfl, rfl⟩
    · exact h.none_lost u hu d hd hbase hcur
    · have := h.cursor_le u
      omega

include hseqs hentries hseq in
/-- The connections that are subscribed have the event in their queues. -/
theorem ConnOk.publish (h : ConnOk w k) {inbox : List (Topic × Event)}
    (hinbox : inbox = k.inbox ∧ ¬(k.isOpen = true ∧ t ∈ k.position.topics) ∨
      inbox = k.inbox ++ [(t, e)]) : ConnOk w' { k with inbox } where
  position := h.position.publish hseqs hentries hseq
  numbers := h.numbers
  idle := h.idle
  inbox_le i hi := by
    rcases hinbox with ⟨rfl, -⟩ | rfl
    · exact (h.inbox_le i hi).trans (seqs_le hseqs _)
    · rcases List.mem_append.mp hi with hi | hi
      · exact (h.inbox_le i hi).trans (seqs_le hseqs _)
      · obtain rfl := List.mem_singleton.mp hi
        rw [hseqs, if_pos rfl, hseq]
  pending_le i hi := (h.pending_le i hi).trans (seqs_le hseqs _)
  pending_ordered := h.pending_ordered
  unsent := h.unsent
  contiguous i hi hit d hd hlt hbefore := by
    rcases mem_entries hentries hd with hd | ⟨hu, rfl⟩
    · exact h.contiguous i hi hit d hd hlt hbefore
    · have := h.pending_le i hi
      rw [hu] at this
      omega
  waiting hopen u hu d hd hlt := by
    rcases mem_entries hentries hd with hd | ⟨rfl, rfl⟩
    · refine (h.waiting hopen u hu d hd hlt).imp_right fun hmem => ?_
      rcases hinbox with ⟨rfl, -⟩ | rfl
      · exact hmem
      · exact List.mem_append_left _ hmem
    · rcases hinbox with ⟨-, hnot⟩ | rfl
      · exact absurd ⟨hopen, hu⟩ hnot
      · exact .inr (List.mem_append_right _ (List.mem_singleton_self _))

end

theorem extends_hear (c : Nat) (k : Conn) (t : Topic) (e : Event) :
    Extends c k (Conn.hear t e k) := by
  rw [Conn.hear]
  split
  · exact extends_of_frames rfl rfl
  · exact .refl c k

theorem Ok.publish (h : Ok s) {w' : Streams} {t : Topic} {id : Nat ×ₗ Nat}
    {control : Option Control} {e : Event}
    (hpublish : s.streams.publish t id control = some (w', e)) :
    Ok ({ s with streams := w' }.broadcast t e) := by
  obtain ⟨hid, hseq, hseqs, hentries⟩ := publish_cases hpublish
  refine h.continues ?_ (h.streams.publish hseqs hentries hseq hid) fun c k hk => ?_
  · exact {
      forward := fun c k hk => ⟨_, congrArg (Option.map _) hk, extends_hear c k t e⟩
      backward := by
        intro c k' hk'
        obtain ⟨k, hk, rfl⟩ := Option.map_eq_some_iff.mp hk'
        exact ⟨k, hk, extends_hear c k t e⟩
      position := fun frames p hp => hp.publish hseqs hentries hseq
      sequence := rfl
      stored := rfl
      progress := rfl }
  · obtain ⟨k, hold, rfl⟩ := Option.map_eq_some_iff.mp hk
    have hok := h.conns c k hold
    rw [Conn.hear]
    split
    · exact hok.publish hseqs hentries hseq (.inr rfl)
    · rename_i hnot
      exact hok.publish hseqs hentries hseq (.inl ⟨rfl, hnot⟩)

end

/-! ### RESUME -/

/-- The entry that a RESUME reads was written by the connection that sent the
client the frame it names. -/
def Written (s : State) : Input → Prop
  | .resume c q currentTopics _ _ =>
      ∀ k ∈ s.conns c, ∀ p ∈ s.resumePosition q currentTopics, ∀ f ∈ k.frames, f.number = q →
        p.writer = f.sender
  | _ => True

instance (s : State) : (i : Input) → Decidable (Written s i)
  | .resume c q currentTopics _ _ =>
      inferInstanceAs (Decidable (∀ k ∈ s.conns c, ∀ p ∈ s.resumePosition q currentTopics,
        ∀ f ∈ k.frames, f.number = q → p.writer = f.sender))
  | .publish _ _ _ | .trim _ _ | .purge _ _ | .start _ _ _ | .take _ _ | .deliver _ _ |
    .finish _ _ | .ephemeral _ _ _ _ | .request _ _ | .disconnect _ _ =>
      inferInstanceAs (Decidable True)

section

variable {s : State} {c new q : Nat} {k : Conn} {p : Progress} {expired : List (Topic × Nat)}
  {currentTopics : List Topic}

theorem Ok.resumePosition (h : Ok s) (hp : s.resumePosition q currentTopics = some p) :
    ProgressOk s q p := by
  rw [State.resumePosition] at hp
  split at hp
  · exact absurd hp (by simp)
  split at hp
  · exact absurd hp (by simp)
  rename_i p' hp'
  split at hp
  · obtain rfl := Option.some.inj hp
    split at hp'
    · rename_i hq
      obtain rfl := Option.some.inj hp'
      exact hq ▸ h.stored
    · exact h.progress q p' hp'
  · exact absurd hp (by simp)

/-- The position fits what the client has up to the number. -/
theorem Ok.resumed_position (h : Ok s) (hk : s.conns c = some k) {f : Frame} (hf : f ∈ k.frames)
    (hq : f.number = q) (hp : ProgressOk s q p) (hwriter : p.writer = f.sender) :
    PositionOk s.streams (upTo q k.frames) p.position := by
  subst hq
  obtain ⟨a, ha, -, hok⟩ := hp
  obtain ⟨b, hb, -, heq⟩ := h.lineage c k hk f hf
  rw [hwriter, hb] at ha
  obtain rfl := Option.some.inj ha
  exact heq ▸ hok

theorem Ok.addConn (h : Ok s) (hk : s.conns c = some k) (hnew : s.conns new = none) {k' : Conn}
    (hok : ConnOk s.streams k') (hframes : k'.frames = upTo q k.frames) :
    Ok (s.setConn new k') := by
  have hold {d : Nat} {a : Conn} (ha : s.conns d = some a) :
      (s.setConn new k').conns d = some a := by
    rw [setConn_conns, if_neg]
    · exact ha
    · rintro rfl
      exact absurd (hnew.symm.trans ha) (by simp)
  have hprogress {q : Nat} {p : Progress} (hp : ProgressOk s q p) :
      ProgressOk (s.setConn new k') q p := by
    obtain ⟨a, ha, hrest⟩ := hp
    exact ⟨a, hold ha, hrest⟩
  exact {
    streams := h.streams
    conns := by
      intro d a ha
      rw [setConn_conns] at ha
      split at ha
      · obtain rfl := Option.some.inj ha
        exact hok
      · exact h.conns d a ha
    lineage := by
      intro d a ha f hf
      rw [setConn_conns] at ha
      split at ha
      · obtain rfl := Option.some.inj ha
        rw [hframes] at hf ⊢
        obtain ⟨hmem, hle⟩ := List.mem_filter.mp hf
        obtain ⟨b, hb, hnumber, heq⟩ := h.lineage c k hk f hmem
        refine ⟨b, hold hb, hnumber, ?_⟩
        rw [upTo_upTo (of_decide_eq_true hle), heq]
      · obtain ⟨b, hb, hrest⟩ := h.lineage d a ha f hf
        exact ⟨b, hold hb, hrest⟩
    stored := hprogress h.stored
    progress := fun q p hp => hprogress (h.progress q p hp) }

theorem Ok.resume {s' : State} (h : Ok s) (hk : s.conns c = some k) (hnew : s.conns new = none)
    (hreceived : ∃ f ∈ k.frames, f.number = q)
    (hwritten : Written s (.resume c q currentTopics expired new))
    (hresume : s.resume k q currentTopics expired new = some s') : Ok s' := by
  rw [State.resume] at hresume
  split at hresume
  · exact absurd hresume (by simp)
  rename_i p hp
  split at hresume
  · exact absurd hresume (by simp)
  rename_i pending hreplay
  obtain rfl := Option.some.inj hresume
  obtain ⟨f, hf, hq⟩ := hreceived
  have hposition := h.resumed_position hk hf hq (h.resumePosition hp) (hwritten k hk p hp f hf hq)
  refine (h.shrink (shrinks_purge p.position.topics expired)).addConn (k := k) (q := q) hk hnew
    ?_ rfl
  refine ConnOk.replayed h.streams hreplay hposition ?_ (fun i hi => absurd hi (by simp)) (by simp)
    hposition.nodup (List.Subset.refl _) fun _ t ht hnot => absurd ht hnot
  intro f hf
  exact of_decide_eq_true (List.mem_filter.mp hf).2

end

/-! ## Every step -/

section

variable {s s' : State} {c : Nat} {k : Conn} {expired : List (Topic × Nat)}

theorem Ok.take (h : Ok s) (hk : s.conns c = some k) (hidle : k.phase = .idle)
    (htake : s.take c k expired = some s') : Ok s' := by
  have hok := h.conns c k hk
  rw [State.take] at htake
  split at htake
  · exact absurd htake (by simp)
  rename_i t e inbox hinbox
  split at htake
  · rename_i ht
    obtain rfl := Option.some.inj htake
    exact h.setConn hk (extends_of_frames rfl rfl) (hok.ignore hinbox ht)
  rename_i ht
  rw [not_not] at ht
  split at htake
  · rename_i hle
    obtain rfl := Option.some.inj htake
    exact h.setConn hk (extends_of_frames rfl rfl) (hok.next hinbox hidle ht (.inl ⟨rfl, hle⟩))
  rename_i hlt
  split at htake
  · split at htake
    · obtain rfl := Option.some.inj htake
      refine h.setConn hk (extends_of_frames rfl rfl) (hok.close ?_)
      rw [hinbox]
      exact List.subset_cons_self _ _
    · rename_i pending hreplay
      obtain rfl := Option.some.inj htake
      refine (h.shrink (shrinks_purge [t] expired)).setConn hk (extends_of_frames rfl rfl) ?_
      refine ConnOk.replayed h.streams hreplay hok.position hok.numbers ?_ (by simp)
        (List.nodup_singleton t) (List.cons_subset.mpr ⟨ht, List.nil_subset _⟩) ?_
      · exact fun i hi => hok.inbox_le i (hinbox ▸ List.mem_cons_of_mem _ hi)
      · intro hopen u hu hne d hd hcur
        rcases hok.waiting hopen u hu d hd hcur with hmem | hmem
        · rw [hok.idle hidle] at hmem
          exact absurd hmem (by simp)
        · rw [hinbox] at hmem
          rcases List.mem_cons.mp hmem with heq | hmem
          · exact absurd (List.mem_singleton.mpr (Prod.mk.inj heq).1) hne
          · exact hmem
  · rename_i hgap
    obtain rfl := Option.some.inj htake
    refine h.setConn hk (extends_of_frames rfl rfl) (hok.next hinbox hidle ht (.inr ⟨rfl, ?_⟩))
    omega

theorem Ok.start (h : Ok s) (hk : s.conns c = some k) (threads : Nat)
    {pending : List (Topic × Event)}
    (hreplay : replayTopicEvents s.streams k.position expired k.position.topics = some pending) :
    Ok { s.setConn c { Conn.sendOthers c threads k with pending, phase := .starting } with
      streams := s.streams.purge k.position.topics expired } := by
  have hok := (h.conns c k hk).sendOthers c threads
  have hsame := sendOthers_position c threads k
  have hext : Extends c k { Conn.sendOthers c threads k with pending, phase := .starting } :=
    (extends_sendOthers c threads k).trans (extends_of_frames rfl rfl)
  refine (h.shrink (shrinks_purge k.position.topics expired)).setConn hk hext ?_
  refine ConnOk.replayed h.streams ?_ hok.position hok.numbers hok.inbox_le (by simp)
    (h.conns c k hk).position.nodup ?_ ?_
  · dsimp only
    rw [hsame]
    exact hreplay
  · dsimp only
    rw [hsame]
    exact List.Subset.refl _
  · intro _ t ht hnot
    dsimp only at ht
    rw [hsame] at ht
    exact absurd ht hnot

theorem Ok.finish_cases (h : Ok s) (hk : s.conns c = some k) (hpending : k.pending = [])
    {responses : Nat} (hfinish : s.finish c k responses = some s') : Ok s' := by
  have hok := h.conns c k hk
  have hothers : (Conn.sendOthers c responses k).pending = [] := by
    obtain ⟨new, hnew, -⟩ := sendOthers_eq c responses k
    rw [hnew]
    exact hpending
  rw [State.finish] at hfinish
  split at hfinish
  · exact absurd hfinish (by simp)
  · exact absurd hfinish (by simp)
  · obtain rfl := Option.some.inj hfinish
    exact h.finish hk (.refl c k) hok hpending
  · obtain rfl := Option.some.inj hfinish
    exact h.finish hk (extends_sendOthers c responses k) (hok.sendOthers c responses) hothers
  · obtain rfl := Option.some.inj hfinish
    exact h.finish hk ((extends_sendOthers c responses k).trans (extends_send c _ none))
      ((hok.sendOthers c responses).sendOthers c 1) hothers

end

/-! ## Whole runs -/

/-- The client of a connection has every event at most once and in order. It
has what the connection has gone past, unless the checks of a delivery found
it expired or not visible, and the rest waits, as long as the stream keeps
it. -/
structure Exact (s : State) (k : Conn) : Prop where
  ordered : ∀ t, (sent k.frames t).Pairwise (· < ·)
  gone_past : ∀ t ∈ k.position.topics, ∀ e ∈ s.streams.entries t, k.position.base t < e.seq →
    e.seq ≤ k.position.cursors t → e.seq ∈ sent k.frames t ∨ (t, e.seq) ∈ k.position.passed
  waiting : k.isOpen = true → ∀ t ∈ k.position.topics, ∀ e ∈ s.streams.entries t,
    k.position.cursors t < e.seq → (t, e) ∈ k.pending ∨ (t, e) ∈ k.inbox

theorem Ok.exact {s : State} (h : Ok s) {c : Nat} {k : Conn} (hk : s.conns c = some k) :
    Exact s k where
  ordered := (h.conns c k hk).position.ordered
  gone_past := (h.conns c k hk).position.none_lost
  waiting := (h.conns c k hk).waiting

end Gateway

end Kaede
