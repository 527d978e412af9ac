import Kaede.GatewayResume

/-!
# Gaps in a replay

`replay_topic_events` gives up on a topic when the first event after the
cursor that it finds is not the next one. What it should see is another
thing: that an event the client needs, one that has not expired, is no longer
in the stream.

The streams hold the last events that were published, less some that have
expired (`Retains`). In them the test sees a loss as long as an event after
it is there to be found, and takes the event after the cursor for lost when
it has expired and one behind it has not (`pendingOf_eq_none_iff`). So a
loss at the end of a stream goes unseen, and an expired event in front of
others ends a session that lost nothing; `replay_detects_loss_iff` says that
there is no third way for the test to be wrong.
-/

namespace Kaede

namespace Gateway

/-- The streams hold the last events of each topic, less expired ones. -/
structure Retains (w : Streams) (expired : List (Topic × Nat)) : Prop extends StreamsOk w where
  suffix : ∀ t, ∃ n, (∀ e ∈ w.entries t, n < e.seq) ∧
    ∀ seq, n < seq → seq ≤ w.seqs t → (t, seq) ∉ expired → seq ∈ (w.entries t).map Event.seq

section

variable {w w' : Streams} {expired : List (Topic × Nat)}

/-! ## What happens to a stream -/

/-- A deleted entry had expired, and expires no other way. -/
theorem Retains.expire {more : List (Topic × Nat)} (hw : Retains w expired)
    (hmore : expired ⊆ more) : Retains w more where
  toStreamsOk := hw.toStreamsOk
  suffix t := by
    obtain ⟨n, hlt, hkept⟩ := hw.suffix t
    exact ⟨n, hlt, fun seq hn hseq hlive => hkept seq hn hseq fun h => hlive (hmore h)⟩

theorem Retains.publish {t : Topic} {id : Nat ×ₗ Nat} {control : Option Control} {e : Event}
    (hw : Retains w expired) (h : w.publish t id control = some (w', e)) : Retains w' expired := by
  obtain ⟨hid, hseq, hseqs, hentries⟩ := publish_cases h
  refine ⟨hw.toStreamsOk.publish hseqs hentries hseq hid, fun u => ?_⟩
  obtain ⟨n, hlt, hkept⟩ := hw.suffix u
  refine ⟨min n (w.seqs u), fun d hd => ?_, fun seq hn hle hlive => ?_⟩
  · rcases mem_entries hentries hd with hd | ⟨rfl, rfl⟩
    · exact lt_of_le_of_lt (min_le_left _ _) (hlt d hd)
    · rw [hseq]
      exact Nat.lt_succ_of_le (min_le_right _ _)
  · rw [hentries]
    rw [hseqs] at hle
    by_cases hold : seq ≤ w.seqs u
    · have hmem := hkept seq (by omega) hold hlive
      split
      · next hu =>
        subst hu
        rw [List.map_append]
        exact List.mem_append_left _ hmem
      · exact hmem
    · split at hle
      · next hu =>
        subst hu
        rw [if_pos rfl, List.map_append, List.map_singleton]
        exact List.mem_append_right _ (List.mem_singleton.mpr (by omega))
      · exact absurd hle hold

theorem Retains.trim (hw : Retains w expired) (t : Topic) (n : Nat) :
    Retains (w.trim t n) expired := by
  refine ⟨hw.toStreamsOk.shrink (shrinks_trim t n), fun u => ?_⟩
  obtain ⟨m, hlt, hkept⟩ := hw.suffix u
  have hsorted := hw.sorted u
  have hentries : (w.trim t n).entries u =
      if u = t then (w.entries t).drop n else w.entries u := Function.update_apply ..
  rw [hentries]
  split
  · next hu =>
    subst hu
    cases hrest : (w.entries u).drop n with
    | nil => exact ⟨w.seqs u, by simp, fun seq hn hle => absurd hle (Nat.not_le.mpr hn)⟩
    | cons e rest =>
      rw [← List.take_append_drop n (w.entries u), hrest] at hlt hkept hsorted
      obtain ⟨-, hdrop, hacross⟩ := List.pairwise_append.mp hsorted
      have he := hlt e (by simp)
      refine ⟨e.seq - 1, fun d hd => ?_, fun seq hn hle hlive => ?_⟩
      · rcases List.mem_cons.mp hd with rfl | hd
        · omega
        · have := ((List.pairwise_cons.mp hdrop).1 d hd).2
          omega
      · obtain ⟨d, hd, rfl⟩ := List.mem_map.mp (hkept seq (by omega) hle hlive)
        rcases List.mem_append.mp hd with hd | hd
        · have := (hacross d hd e List.mem_cons_self).2
          omega
        · exact List.mem_map_of_mem hd
  · exact ⟨m, hlt, hkept⟩

theorem Retains.purge (hw : Retains w expired) (topics : List Topic) :
    Retains (w.purge topics expired) expired := by
  refine ⟨hw.toStreamsOk.shrink (shrinks_purge topics expired), fun u => ?_⟩
  obtain ⟨n, hlt, hkept⟩ := hw.suffix u
  by_cases hu : u ∈ topics
  · refine ⟨n, fun e he => hlt e ((mem_purge hu).mp he).1, fun seq hn hle hlive => ?_⟩
    obtain ⟨e, he, rfl⟩ := List.mem_map.mp (hkept seq hn hle hlive)
    exact List.mem_map_of_mem ((mem_purge hu).mpr ⟨he, hlive⟩)
  · have hsame : (w.purge topics expired).entries u = w.entries u := if_neg hu
    rw [hsame]
    exact ⟨n, hlt, hkept⟩

end

/-! ## The test -/

section

variable (w : Streams) (p : Position) (expired : List (Topic × Nat))

/-- An event after the cursor that has not expired is no longer there. -/
def Lost (t : Topic) : Prop :=
  ∃ seq, p.cursors t < seq ∧ seq ≤ w.seqs t ∧ (t, seq) ∉ expired ∧
    seq ∉ (w.entries t).map Event.seq

/-- An event after the cursor is there and has not expired. -/
def Waiting (t : Topic) : Prop :=
  ∃ e ∈ w.entries t, (t, e.seq) ∉ expired ∧ p.cursors t < e.seq

/-- The event after the cursor has expired. -/
def NextExpired (t : Topic) : Prop := (t, p.cursors t + 1) ∈ expired

/-- What a replay is for: it fails exactly if an event is lost, and gives
everything that is still there otherwise, each topic in order. -/
structure DetectsLoss (topics : List Topic) : Prop where
  fails_iff : replayTopicEvents w p expired topics = none ↔ ∃ t ∈ topics, Lost w p expired t
  complete : ∀ replay, replayTopicEvents w p expired topics = some replay →
    ∀ i, i ∈ replay ↔ i.1 ∈ topics ∧ i.2 ∈ w.entries i.1 ∧ (i.1, i.2.seq) ∉ expired ∧
      p.cursors i.1 < i.2.seq
  ordered : ∀ replay, replayTopicEvents w p expired topics = some replay →
    replay.Pairwise fun a b => a.1 = b.1 → a.2.seq < b.2.seq

end

variable {w : Streams} {p : Position} {expired : List (Topic × Nat)} {topics : List Topic}

/-- A topic is given up when an event is there to be found, and the one
after the cursor has expired or is lost. -/
theorem pendingOf_eq_none_iff (hw : Retains w expired) {t : Topic} :
    pendingOf w p expired t = none ↔
      Waiting w p expired t ∧ (NextExpired p expired t ∨ Lost w p expired t) := by
  have hmem : ∀ e, e ∈ afterCursor w p expired t ↔
      e ∈ w.entries t ∧ (t, e.seq) ∉ expired ∧ p.cursors t < e.seq := by
    intro e
    rw [afterCursor, List.mem_filter, decide_eq_true_iff]
  have hsorted : (afterCursor w p expired t).Pairwise fun a b => a.seq < b.seq :=
    ((hw.sorted t).filter _).imp And.right
  unfold pendingOf
  cases hafter : afterCursor w p expired t with
  | nil =>
    refine iff_of_false (Option.some_ne_none _) ?_
    rintro ⟨⟨e, he⟩, -⟩
    rw [← hmem, hafter] at he
    cases he
  | cons e es =>
    rw [hafter] at hmem hsorted
    obtain ⟨he, hlive, hcursor⟩ := (hmem e).mp List.mem_cons_self
    have hnone : (if p.cursors t + 1 < e.seq then none else some ((e :: es).map (t, ·))) = none ↔
        p.cursors t + 1 < e.seq := by
      split
      · next hlt => exact iff_of_true rfl hlt
      · next hle => exact iff_of_false (Option.some_ne_none _) hle
    refine hnone.trans ⟨fun hlt => ⟨⟨e, he, hlive, hcursor⟩, ?_⟩, ?_⟩
    · by_cases hnext : NextExpired p expired t
      · exact .inl hnext
      · -- the event after the cursor would have been found first
        refine .inr ⟨p.cursors t + 1, Nat.lt_succ_self _, ?_, hnext, fun hfound => ?_⟩
        · exact (Nat.le_of_lt hlt).trans (hw.le t e he)
        · obtain ⟨d, hd, hseq⟩ := List.mem_map.mp hfound
          have hd := (hmem d).mpr ⟨hd, hseq ▸ hnext, hseq ▸ Nat.lt_succ_self _⟩
          rcases List.mem_cons.mp hd with rfl | hd
          · omega
          · have := (List.pairwise_cons.mp hsorted).1 d hd
            omega
    · rintro ⟨-, hnext | ⟨seq, hseq, hle, hunexpired, hgone⟩⟩
      · have hne : e.seq ≠ p.cursors t + 1 := fun heq => hlive (heq ▸ hnext)
        omega
      · by_contra hfirst
        obtain ⟨n, hlt, hkept⟩ := hw.suffix t
        have := hlt e he
        exact hgone (hkept seq (by omega) hle hunexpired)

theorem collect_eq_none_iff :
    collect w p expired topics = none ↔ ∃ t ∈ topics, pendingOf w p expired t = none := by
  induction topics with
  | nil => simp [collect]
  | cons t ts ih =>
    rw [List.exists_mem_cons_iff, ← ih, collect]
    split
    · next hnone => exact iff_of_true rfl (.inl hnone)
    · next pending hsome =>
      rw [Option.map_eq_none_iff, hsome, or_iff_right (Option.some_ne_none pending)]

theorem replayTopicEvents_eq_none_iff (hw : Retains w expired) :
    replayTopicEvents w p expired topics = none ↔ ∃ t ∈ topics,
      Waiting w p expired t ∧ (NextExpired p expired t ∨ Lost w p expired t) := by
  rw [replayTopicEvents, Option.map_eq_none_iff, collect_eq_none_iff]
  simp only [pendingOf_eq_none_iff hw]

/-- A replay does what it is for exactly if, where an event is lost, some
topic with a lost event or an expired one after its cursor has another event
to show, and where none is lost, no topic has an event to show behind an
expired one after its cursor. -/
theorem replay_detects_loss_iff (hw : Retains w expired) (hnodup : topics.Nodup) :
    DetectsLoss w p expired topics ↔
      ((∃ t ∈ topics, Lost w p expired t) → ∃ t ∈ topics,
        Waiting w p expired t ∧ (NextExpired p expired t ∨ Lost w p expired t)) ∧
      ((∀ t ∈ topics, ¬Lost w p expired t) → ∀ t ∈ topics,
        Waiting w p expired t → ¬NextExpired p expired t) := by
  have hnone := @replayTopicEvents_eq_none_iff w p expired topics hw
  constructor
  · intro h
    have hfails := hnone.symm.trans h.fails_iff
    refine ⟨hfails.mpr, fun hkept t ht hwaiting hnext => ?_⟩
    obtain ⟨u, hu, hlost⟩ := hfails.mp ⟨t, ht, hwaiting, .inl hnext⟩
    exact hkept u hu hlost
  · rintro ⟨hseen, hfalse⟩
    refine ⟨hnone.trans ⟨?_, hseen⟩, fun replay h i => mem_replay h, fun replay h =>
      replay_ordered hw.toStreamsOk hnodup h⟩
    rintro ⟨t, ht, hwaiting, hreason⟩
    by_contra hkept
    simp only [not_exists, not_and] at hkept
    exact hreason.elim (hfalse hkept t ht hwaiting) (hkept t ht)

/-- A topic with two events, of which the second is kept. -/
def secondKept : Streams where
  seqs t := if t = "user" then 2 else 0
  entries t := if t = "user" then [{ id := toLex (2, 0), seq := 2 }] else []

def atStart : Position where
  cursors _ := 0
  topics := ["user"]
  base _ := 0
  passed := []

theorem secondKept_retains (expired : List (Topic × Nat)) : Retains secondKept expired where
  sorted t := by
    simp only [secondKept]
    split
    · exact List.pairwise_singleton _ _
    · exact .nil
  le t := by
    simp only [secondKept]
    split <;> simp
  suffix t := by
    refine ⟨1, ?_⟩
    simp only [secondKept]
    split
    · refine ⟨by simp, fun seq hn hle _ => ?_⟩
      have : seq = 2 := by omega
      simp [this]
    · exact ⟨by simp, fun seq hn hle => absurd hle (by omega)⟩

/-- The first event is lost, and the replay sees it. -/
theorem replay_detects_loss_first : DetectsLoss secondKept atStart [] ["user"] ∧
    replayTopicEvents secondKept atStart [] ["user"] = none := by
  have hlost : Lost secondKept atStart [] "user" :=
    ⟨1, by decide, by decide, by decide, by decide⟩
  have hwaiting : Waiting secondKept atStart [] "user" :=
    ⟨{ id := toLex (2, 0), seq := 2 }, by decide, by decide, by decide⟩
  refine ⟨(replay_detects_loss_iff (secondKept_retains []) (List.nodup_singleton _)).mpr ⟨?_, ?_⟩,
    by decide⟩
  · exact fun _ => ⟨"user", List.mem_singleton.mpr rfl, hwaiting, .inr hlost⟩
  · exact fun hkept => absurd hlost (hkept "user" (List.mem_singleton.mpr rfl))

/-- The first event has expired, and the replay takes it for lost; the second
has, and the loss of the first goes unseen. -/
theorem replay_misjudges_expired_events :
    (replayTopicEvents secondKept atStart [("user", 1)] ["user"] = none ∧
      ¬Lost secondKept atStart [("user", 1)] "user") ∧
    (replayTopicEvents secondKept atStart [("user", 2)] ["user"] = some [] ∧
      Lost secondKept atStart [("user", 2)] "user") ∧
    ¬DetectsLoss secondKept atStart [("user", 1)] ["user"] ∧
    ¬DetectsLoss secondKept atStart [("user", 2)] ["user"] := by
  have hfalse : replayTopicEvents secondKept atStart [("user", 1)] ["user"] = none := by decide
  have hkept : ¬Lost secondKept atStart [("user", 1)] "user" := by
    rintro ⟨seq, hcursor, hle, hlive, hgone⟩
    have hseq : seq = 1 ∨ seq = 2 := by
      change 0 < seq at hcursor
      change seq ≤ 2 at hle
      omega
    rcases hseq with rfl | rfl
    · exact hlive (List.mem_singleton.mpr rfl)
    · exact hgone (by decide)
  have hmissed : replayTopicEvents secondKept atStart [("user", 2)] ["user"] = some [] := by
    show some (Paging.sortedBy _ []) = _
    rw [Paging.sortedBy, List.mergeSort_nil]
  have hlost : Lost secondKept atStart [("user", 2)] "user" :=
    ⟨1, by decide, by decide, by decide, by decide⟩
  refine ⟨⟨hfalse, hkept⟩, ⟨hmissed, hlost⟩, fun h => ?_, fun h => ?_⟩
  · obtain ⟨t, ht, hloss⟩ := h.fails_iff.mp hfalse
    rw [List.mem_singleton.mp ht] at hloss
    exact hkept hloss
  · have hnone := h.fails_iff.mpr ⟨"user", List.mem_singleton.mpr rfl, hlost⟩
    rw [hmissed] at hnone
    cases hnone

end Gateway

end Kaede
