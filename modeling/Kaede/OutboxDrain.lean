import Kaede.Outbox

/-!
# Which rows a drain selects

A drain walks the live rows in stream order through four loops: the first
hundred, the due ones, those with distinct event ids, and, after the rows
a block holds were taken out, as many as fit into one request. Each loop
stops at its first misfit, so a row is selected exactly when all rows up to
it fit (`mem_batch_iff`).

The loop over due rows runs before the held rows are taken out, and a held
row is not due for a hundred years: it keeps every row behind it back.
-/

namespace Kaede

namespace Outbox

/-- The live rows before a row. -/
def ahead (s : Outbox) (r : Row) : List Row := s.activeRows.filter fun a => a.id < r.id

section

variable {s : Outbox} {r : Row} {now : Int} {level : BlockLevel}

theorem mem_activeRows : r ∈ s.activeRows ↔ r ∈ s.rows ∧ r.active := by
  rw [activeRows, List.mem_insertionSort, List.mem_filter]

theorem sorted_activeRows (hids : (s.rows.map Row.id).Nodup) :
    s.activeRows.Pairwise fun a b => a.id < b.id := by
  have : IsTrans Row fun a b => a.id ≤ b.id := ⟨fun _ _ _ => Nat.le_trans⟩
  have : Std.Total fun a b : Row => a.id ≤ b.id := ⟨fun _ _ => Nat.le_total _ _⟩
  have hle : s.activeRows.Pairwise fun a b => a.id ≤ b.id := List.pairwise_insertionSort _ _
  have hnodup : (s.activeRows.map Row.id).Nodup := by
    have hperm : s.activeRows.Perm (s.rows.filter Row.active) := List.perm_insertionSort _ _
    rw [(hperm.map Row.id).nodup_iff]
    exact hids.sublist (List.filter_sublist.map Row.id)
  refine (hle.and (List.pairwise_map.mp hnodup)).imp fun hab => ?_
  exact Nat.lt_of_le_of_ne hab.1 hab.2

theorem mem_ahead {a : Row} : a ∈ s.ahead r ↔ a ∈ s.rows ∧ a.active ∧ a.id < r.id := by
  rw [ahead, List.mem_filter, mem_activeRows, and_assoc]
  simp

theorem not_mem_ahead : r ∉ s.ahead r := fun h => Nat.lt_irrefl _ (mem_ahead.mp h).2.2

theorem batchBytes_mono (l : List Row) (x : Row) : s.batchBytes l ≤ s.batchBytes (l ++ [x]) := by
  simp only [batchBytes, List.map_append, List.sum_append, List.length_append,
    List.length_singleton]
  omega

/-- Everything up to the row fits: the rows before it are all due, and one
request takes them. -/
structure InReach (s : Outbox) (level : BlockLevel) (now : Int) (r : Row) : Prop where
  due : ∀ a ∈ s.rows, a.active → a.id < r.id → a.nextRetryAt ≤ now
  count : (s.ahead r).length < maxBatchEvents
  distinct : ((s.ahead r ++ [r]).map Row.eventId).Nodup
  bytes : s.batchBytes ((s.ahead r ++ [r]).filter fun a => !s.holds level a) ≤ maxBatchBytes

theorem keepsAll_distinct {rows : List Row} :
    KeepsAll (fun kept r => r.eventId ∉ kept.map Row.eventId) [] rows ↔
      (rows.map Row.eventId).Nodup :=
  keepsAll_nodup (List.nodup_nil : (([] : List Row).map Row.eventId).Nodup)

/-- Where a row stands once the due head of the stream is selected. -/
theorem dueRows_through (hids : (s.rows.map Row.id).Nodup) (hr : r ∈ s.rows) (hactive : r.active)
    (hcount : (s.ahead r).length < maxBatchEvents)
    (hdue : ∀ a ∈ s.ahead r ++ [r], a.nextRetryAt ≤ now)
    (hdistinct : ((s.ahead r ++ [r]).map Row.eventId).Nodup) :
    ∃ back, s.dueRows now = s.ahead r ++ r :: back := by
  obtain ⟨back, hsplit⟩ := exists_split_of_sorted (sorted_activeRows hids)
    (mem_activeRows.mpr ⟨hr, hactive⟩)
  have hsplit : s.activeRows = s.ahead r ++ r :: back := hsplit
  rw [dueRows, hsplit]
  obtain ⟨back₁, h₁⟩ : ∃ back₁, (s.ahead r ++ r :: back).take maxBatchEvents =
      s.ahead r ++ r :: back₁ := take_through hcount
  rw [h₁]
  obtain ⟨back₂, h₂⟩ : ∃ back₂, dueOrderedPrefix (s.ahead r ++ r :: back₁) now =
      s.ahead r ++ r :: back₂ := keepWhile_through (keepsAll_forall.mpr hdue)
  rw [h₂]
  exact keepWhile_through (keepsAll_distinct.mpr hdistinct)

theorem mem_dueRows_iff (hids : (s.rows.map Row.id).Nodup) (hr : r ∈ s.rows) (hactive : r.active) :
    r ∈ s.dueRows now ↔ (s.ahead r).length < maxBatchEvents ∧
      (∀ a ∈ s.ahead r ++ [r], a.nextRetryAt ≤ now) ∧
      ((s.ahead r ++ [r]).map Row.eventId).Nodup := by
  constructor
  · intro hmem
    obtain ⟨back, hsplit⟩ := exists_split_of_sorted (sorted_activeRows hids)
      (mem_activeRows.mpr ⟨hr, hactive⟩)
    have hsplit : s.activeRows = s.ahead r ++ r :: back := hsplit
    have hhead : r ∈ dueOrderedPrefix (s.activeRows.take maxBatchEvents) now :=
      keepWhile_isPrefix.subset hmem
    have hcount : (s.ahead r).length < maxBatchEvents := by
      have htake := keepWhile_isPrefix.subset hhead
      rw [hsplit] at htake
      exact length_lt_of_mem_take not_mem_ahead htake
    rw [dueRows, hsplit] at hmem
    rw [hsplit] at hhead
    obtain ⟨back₁, h₁⟩ : ∃ back₁, (s.ahead r ++ r :: back).take maxBatchEvents =
        s.ahead r ++ r :: back₁ := take_through hcount
    rw [h₁] at hmem hhead
    have hdue := (mem_keepWhile_iff not_mem_ahead).mp hhead
    obtain ⟨back₂, h₂⟩ : ∃ back₂, dueOrderedPrefix (s.ahead r ++ r :: back₁) now =
        s.ahead r ++ r :: back₂ := keepWhile_through hdue
    rw [h₂] at hmem
    have hdistinct := (mem_keepWhile_iff not_mem_ahead).mp hmem
    exact ⟨hcount, keepsAll_forall.mp hdue, keepsAll_distinct.mp hdistinct⟩
  · rintro ⟨hcount, hdue, hdistinct⟩
    obtain ⟨back, hback⟩ := dueRows_through hids hr hactive hcount hdue hdistinct
    rw [hback]
    simp

theorem isSome_event?_of_not_holds (h : s.holds level r = false) : (s.event? r).isSome := by
  unfold holds at h
  split at h
  · cases h
  · rename_i e he
    rw [he]
    rfl

/-- A permitted row is sent exactly when everything up to it fits. -/
theorem mem_batch_iff (hids : (s.rows.map Row.id).Nodup) (hr : r ∈ s.rows) (hactive : r.active)
    (hdue : r.nextRetryAt ≤ now) (hpermitted : s.holds level r = false) :
    r ∈ s.batch (some level) now ↔ s.InReach level now r := by
  have hrows : (s.permittedRows (some level) now).filter (fun a => (s.event? a).isSome) =
      (s.dueRows now).filter fun a => !s.holds level a := by
    simp only [permittedRows, Option.all_some]
    refine List.filter_eq_self.mpr fun a ha => ?_
    exact isSome_event?_of_not_holds (by simpa using (List.mem_filter.mp ha).2)
  have hlast (l : List Row) : (l ++ [r]).filter (fun a => !s.holds level a) =
      l.filter (fun a => !s.holds level a) ++ [r] := by
    rw [List.filter_append, List.filter_cons_of_pos (by simp [hpermitted]), List.filter_nil]
  have hnew : r ∉ (s.ahead r).filter fun a => !s.holds level a :=
    fun h => not_mem_ahead (List.mem_filter.mp h).1
  have hall : (∀ a ∈ s.ahead r ++ [r], a.nextRetryAt ≤ now) ↔
      ∀ a ∈ s.rows, a.active → a.id < r.id → a.nextRetryAt ≤ now := by
    simp only [List.mem_append, List.mem_singleton, mem_ahead]
    refine ⟨fun h a ha hactive hlt => h a (.inl ⟨ha, hactive, hlt⟩), ?_⟩
    rintro h a (⟨ha, hactive, hlt⟩ | rfl)
    · exact h a ha hactive hlt
    · exact hdue
  have hfits (back : List Row) (hback : s.dueRows now = s.ahead r ++ r :: back) :
      r ∈ s.batch (some level) now ↔
        s.batchBytes ((s.ahead r ++ [r]).filter fun a => !s.holds level a) ≤ maxBatchBytes := by
    rw [batch, hrows, hback, List.filter_append, List.filter_cons_of_pos (by simp [hpermitted]),
      mem_keepWhile_iff hnew, keepsAll_bound batchBytes_mono (by simp), hlast, List.nil_append]
  constructor
  · intro hmem
    have hselected : r ∈ s.dueRows now := by
      have h := keepWhile_isPrefix.subset hmem
      rw [hrows] at h
      exact (List.mem_filter.mp h).1
    obtain ⟨hcount, hdue, hdistinct⟩ := (mem_dueRows_iff hids hr hactive).mp hselected
    obtain ⟨back, hback⟩ := dueRows_through hids hr hactive hcount hdue hdistinct
    exact ⟨hall.mp hdue, hcount, hdistinct, (hfits back hback).mp hmem⟩
  · rintro ⟨hdue, hcount, hdistinct, hbytes⟩
    obtain ⟨back, hback⟩ := dueRows_through hids hr hactive hcount (hall.mpr hdue) hdistinct
    exact (hfits back hback).mpr hbytes

/-- Under a silence, a due row that is not held is selected, or waits behind
one that is not held and not due, exactly when it does wait so or
everything up to it, the held rows included, fits. -/
theorem permitted_row_selected_iff (hids : (s.rows.map Row.id).Nodup) (hr : r ∈ s.rows)
    (hactive : r.active) (hdue : r.nextRetryAt ≤ now) (hpermitted : s.holds .silence r = false) :
    (r ∈ s.batch (some .silence) now ∨
      ∃ a ∈ s.rows, a.active ∧ a.id < r.id ∧ s.holds .silence a = false ∧ now < a.nextRetryAt) ↔
    (∃ a ∈ s.rows, a.active ∧ a.id < r.id ∧ s.holds .silence a = false ∧ now < a.nextRetryAt) ∨
      s.InReach .silence now r := by
  rw [mem_batch_iff hids hr hactive hdue hpermitted, or_comm]

end

/-! ## A silenced destination -/

def guildMessage : Event :=
  { originDomain := "a.example", eventId := "e1", eventType := "guild.message.create"
    envelopeBytes := 400 }

def dmMessage : Event :=
  { originDomain := "a.example", eventId := "e2", eventType := "dm.message.create"
    envelopeBytes := 300 }

/-- The row of `dmMessage` as it enters the stream. -/
def dmRow (id : Nat) : Row :=
  { id, eventOriginDomain := "a.example", eventId := "e2", status := .pending, attempts := 0
    nextRetryAt := 0, lastError := none, createdAt := 0 }

/-- The guild's message is queued before the silence, and the direct one behind
it. -/
def guildFirst : Outbox :=
  { localDomain := "a.example"
    rows := [{ dmRow 1 with eventId := "e1" }, dmRow 2]
    events := [guildMessage, dmMessage]
    nextId := 3 }

theorem dm_behind_due_held_selected :
    guildFirst.ahead (dmRow 2) = [{ dmRow 1 with eventId := "e1" }] ∧
      guildFirst.holds .silence { dmRow 1 with eventId := "e1" } = true ∧
      (dmRow 2 ∈ guildFirst.batch (some .silence) 10 ∨
        ∃ a ∈ guildFirst.rows, a.active ∧ a.id < (dmRow 2).id ∧
          guildFirst.holds .silence a = false ∧ 10 < a.nextRetryAt) := by
  have hahead : guildFirst.ahead (dmRow 2) = [{ dmRow 1 with eventId := "e1" }] := by decide
  have hreach : guildFirst.InReach .silence 10 (dmRow 2) :=
    { due := by decide
      count := by rw [hahead]; decide
      distinct := by rw [hahead]; decide
      bytes := by rw [hahead]; decide }
  exact ⟨hahead, by decide, (permitted_row_selected_iff (by decide) (by decide) (by decide)
    (by decide) (by decide)).mpr (.inr hreach)⟩

/-- The guild's message is queued under the silence, then the direct one:
this is due, nothing but the held row is before it, and the drain does
not select it. -/
theorem dm_behind_held_not_selected :
    ∃ s₁ s₂ : Outbox,
      ({ localDomain := "a.example" } : Outbox).queueEvent (some .silence) guildMessage false 0 =
        some s₁ ∧
      s₁.queueEvent (some .silence) dmMessage false 0 = some s₂ ∧
      dmRow 2 ∈ s₂.rows ∧ (dmRow 2).active ∧ (dmRow 2).nextRetryAt ≤ 10 ∧
      s₂.holds .silence (dmRow 2) = false ∧
      dmRow 2 ∉ s₂.batch (some .silence) 10 ∧
      ¬ ∃ a ∈ s₂.rows, a.active ∧ a.id < (dmRow 2).id ∧ s₂.holds .silence a = false ∧
        10 < a.nextRetryAt := by
  refine ⟨_, _, rfl, rfl, ?_⟩
  decide

end Outbox

end Kaede
