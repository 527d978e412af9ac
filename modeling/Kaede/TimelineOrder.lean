import Kaede.PoolSort
import Kaede.Timeline

/-!
# The order of the timeline

`compareMessages` compares two messages by their ids when both ids are
decimal, and by the time they were created otherwise. Confirmed messages
have decimal ids, provisional ones do not, so one array mixes both keys.
The ids of a federated channel follow the clocks of several servers and a
provisional entry has the time of the browser, and nothing ties the two
orders together.

`ordered_iff` says when the mix is still an order. `Distinguished` asks
that no two different messages compare as equal, `Uninverted` that no
provisional message was created between two confirmed ones whose ids have
the other order.

What is used of the browser's `localeCompare` is that it is a consistent
comparator (`Collation`). The sort is any that the language allows.
-/

namespace Kaede

namespace Timeline

/-! ## Statement -/

/-- `localeCompare` is a consistent comparator. -/
structure Collation (cmp : String → String → Int) : Prop where
  refl : ∀ s, cmp s s = 0
  neg_iff : ∀ s t, cmp s t < 0 ↔ 0 < cmp t s
  trans : ∀ s t u, cmp s t ≤ 0 → cmp t u ≤ 0 → cmp s u ≤ 0

/-- `a` is sorted before `b`. -/
def Before (browser : Browser) (a b : Message) : Prop := compareMessages browser a b < 0

/-- Neither is sorted before the other. -/
def Tied (browser : Browser) (a b : Message) : Prop :=
  ¬ Before browser a b ∧ ¬ Before browser b a

/-- The comparison is a strict weak order on the messages of a list. -/
structure StrictWeakOn (browser : Browser) (pool : List Message) : Prop where
  irrefl : ∀ a ∈ pool, ¬ Before browser a a
  trans : ∀ a ∈ pool, ∀ b ∈ pool, ∀ c ∈ pool,
    Before browser a b → Before browser b c → Before browser a c
  tied_trans : ∀ a ∈ pool, ∀ b ∈ pool, ∀ c ∈ pool,
    Tied browser a b → Tied browser b c → Tied browser a c

/-- What messages of a list are sorted into depends on which they are only,
whatever engine sorts them. -/
def SortDetermined (browser : Browser) (pool : List Message) : Prop :=
  ∀ (engine : ArraySort) (messages : List Message), (∀ m ∈ messages, m ∈ pool) →
    ∀ messages', messages'.Perm messages →
      sortMessages { browser with arraySort := engine } messages' =
        sortMessages { browser with arraySort := engine } messages

/-- The number a decimal id writes. -/
def Message.number (m : Message) : Nat := Nat.ofDigitChars 10 m.id.toList 0

/-- Confirmed messages `a` and `b` in the order of their ids. -/
def IdBefore (browser : Browser) (a b : Message) : Prop :=
  a.number < b.number ∨
    a.id = b.id ∧ browser.localeCompare a.originDomain b.originDomain < 0

/-- Created before, by the text of the times. -/
def CreatedBefore (browser : Browser) (a b : Message) : Prop :=
  browser.localeCompare a.createdAt b.createdAt < 0

/-- No two different messages have the same sort key. -/
def Distinguished (browser : Browser) (pool : List Message) : Prop :=
  ∀ a ∈ pool, ∀ b ∈ pool, a ≠ b →
    if decimal a.id ∧ decimal b.id then
      a.number ≠ b.number ∨
        a.id = b.id ∧ browser.localeCompare a.originDomain b.originDomain ≠ 0
    else browser.localeCompare a.createdAt b.createdAt ≠ 0

/-- No provisional message was created between two confirmed messages
whose ids have the other order. -/
def Uninverted (browser : Browser) (pool : List Message) : Prop :=
  ∀ a ∈ pool, ∀ b ∈ pool, ∀ m ∈ pool, decimal a.id → decimal b.id → ¬ decimal m.id →
    IdBefore browser a b → ¬ (CreatedBefore browser b m ∧ CreatedBefore browser m a)

instance (browser : Browser) (a b : Message) : Decidable (Before browser a b) :=
  inferInstanceAs (Decidable (_ < _))

instance (browser : Browser) (a b : Message) : Decidable (IdBefore browser a b) :=
  inferInstanceAs (Decidable (_ ∨ _))

instance (browser : Browser) (a b : Message) : Decidable (CreatedBefore browser a b) :=
  inferInstanceAs (Decidable (_ < _))

instance (browser : Browser) (pool : List Message) : Decidable (Distinguished browser pool) :=
  inferInstanceAs (Decidable (∀ a ∈ pool, ∀ b ∈ pool, _))

instance (browser : Browser) (pool : List Message) : Decidable (Uninverted browser pool) :=
  inferInstanceAs (Decidable (∀ a ∈ pool, ∀ b ∈ pool, ∀ m ∈ pool, _))

/-! ## The comparison -/

section

variable {cmp : String → String → Int} {s t u : String}

theorem Collation.eq_zero_symm (h : Collation cmp) (hst : cmp s t = 0) : cmp t s = 0 := by
  have h₁ := h.neg_iff s t
  have h₂ := h.neg_iff t s
  omega

theorem Collation.lt_trans (h : Collation cmp) (hst : cmp s t < 0) (htu : cmp t u < 0) :
    cmp s u < 0 := by
  have hle := h.trans s t u hst.le htu.le
  by_contra hnot
  -- with `u` not after `s`, `t` would not be after `u`
  have hus : cmp u s ≤ 0 := by
    have := h.neg_iff s u
    have := h.neg_iff u s
    omega
  have hut := h.trans u s t hus hst.le
  have := h.neg_iff t u
  omega

variable {browser : Browser} {a b c : Message}

theorem before_of_decimal (ha : decimal a.id) (hb : decimal b.id) :
    Before browser a b ↔ IdBefore browser a b := by
  unfold Before IdBefore compareMessages Message.number
  rw [if_pos ⟨ha, hb⟩]
  by_cases hid : a.id = b.id
  · simp [hid]
  · rw [if_neg hid]
    by_cases hlt : Nat.ofDigitChars 10 a.id.toList 0 < Nat.ofDigitChars 10 b.id.toList 0
    · simp [hlt]
    · simp [hlt, hid]

theorem before_of_not_decimal (h : ¬ (decimal a.id ∧ decimal b.id)) :
    Before browser a b ↔ CreatedBefore browser a b := by
  unfold Before CreatedBefore compareMessages
  rw [if_neg h]

theorem IdBefore.trans (hcmp : Collation browser.localeCompare) (hab : IdBefore browser a b)
    (hbc : IdBefore browser b c) : IdBefore browser a c := by
  rcases hab with hab | ⟨hid, hab⟩
  · rcases hbc with hbc | ⟨hid', -⟩
    · exact .inl (hab.trans hbc)
    · exact .inl (by rwa [Message.number, Message.number, ← hid'] )
  · rcases hbc with hbc | ⟨hid', hbc⟩
    · exact .inl (by rwa [Message.number, hid])
    · exact .inr ⟨hid.trans hid', hcmp.lt_trans hab hbc⟩

variable {pool : List Message}

theorem Before.irrefl (hcmp : Collation browser.localeCompare) : ¬ Before browser a a := by
  by_cases ha : decimal a.id
  · rw [before_of_decimal ha ha]
    rintro (h | ⟨-, h⟩)
    · exact h.ne rfl
    · exact h.ne (hcmp.refl _)
  · rw [before_of_not_decimal fun h => ha h.1]
    exact fun h => h.ne (hcmp.refl _)

/-- Different messages of a distinguished pool are not tied. -/
theorem Distinguished.before_or (hcmp : Collation browser.localeCompare)
    (h : Distinguished browser pool) (ha : a ∈ pool) (hb : b ∈ pool) (hne : a ≠ b) :
    Before browser a b ∨ Before browser b a := by
  have hkey := h a ha b hb hne
  by_cases hdec : decimal a.id ∧ decimal b.id
  · rw [if_pos hdec] at hkey
    rw [before_of_decimal hdec.1 hdec.2, before_of_decimal hdec.2 hdec.1]
    rcases hkey with hnum | ⟨hid, hdom⟩
    · exact (Nat.lt_or_gt_of_ne hnum).imp .inl .inl
    · rcases Int.lt_or_gt_of_ne hdom with hlt | hgt
      · exact .inl (.inr ⟨hid, hlt⟩)
      · exact .inr (.inr ⟨hid.symm, (hcmp.neg_iff _ _).mpr hgt⟩)
  · rw [if_neg hdec] at hkey
    rw [before_of_not_decimal hdec, before_of_not_decimal fun h => hdec h.symm]
    exact (Int.lt_or_gt_of_ne hkey).imp_right (hcmp.neg_iff _ _).mpr

theorem Before.asymm (hcmp : Collation browser.localeCompare) (hab : Before browser a b) :
    ¬ Before browser b a := by
  intro hba
  by_cases hdec : decimal a.id ∧ decimal b.id
  · rw [before_of_decimal hdec.1 hdec.2] at hab
    rw [before_of_decimal hdec.2 hdec.1] at hba
    exact Before.irrefl hcmp ((before_of_decimal hdec.1 hdec.1).mpr (hab.trans hcmp hba))
  · rw [before_of_not_decimal hdec] at hab
    rw [before_of_not_decimal fun h => hdec h.symm] at hba
    exact (hcmp.lt_trans hab hba).ne (hcmp.refl _)

/-- Three messages of which the last is provisional: the two others are
both confirmed, or the times decide all three comparisons. -/
theorem Uninverted.no_cycle_of_not_decimal (hcmp : Collation browser.localeCompare)
    (h : Uninverted browser pool) (ha : a ∈ pool) (hb : b ∈ pool) (hc : c ∈ pool)
    (hdec : ¬ decimal c.id) (hab : Before browser a b) (hbc : Before browser b c) :
    ¬ Before browser c a := by
  intro hca
  rw [before_of_not_decimal fun h => hdec h.2] at hbc
  rw [before_of_not_decimal fun h => hdec h.1] at hca
  by_cases hboth : decimal a.id ∧ decimal b.id
  · rw [before_of_decimal hboth.1 hboth.2] at hab
    exact h a ha b hb c hc hboth.1 hboth.2 hdec hab ⟨hbc, hca⟩
  · rw [before_of_not_decimal hboth] at hab
    exact (hcmp.lt_trans hab (hcmp.lt_trans hbc hca)).ne (hcmp.refl _)

theorem Uninverted.no_cycle (hcmp : Collation browser.localeCompare)
    (h : Uninverted browser pool) (ha : a ∈ pool) (hb : b ∈ pool) (hc : c ∈ pool)
    (hab : Before browser a b) (hbc : Before browser b c) : ¬ Before browser c a := by
  intro hca
  by_cases hdc : decimal c.id
  · by_cases hdb : decimal b.id
    · by_cases hda : decimal a.id
      · rw [before_of_decimal hda hdb] at hab
        rw [before_of_decimal hdb hdc] at hbc
        exact Before.asymm hcmp ((before_of_decimal hda hdc).mpr (hab.trans hcmp hbc)) hca
      · exact h.no_cycle_of_not_decimal hcmp hb hc ha hda hbc hca hab
    · exact h.no_cycle_of_not_decimal hcmp hc ha hb hdb hca hab hbc
  · exact h.no_cycle_of_not_decimal hcmp ha hb hc hdc hab hbc hca

theorem Before.trans_of_mem (hcmp : Collation browser.localeCompare)
    (hdist : Distinguished browser pool) (hinv : Uninverted browser pool) (ha : a ∈ pool)
    (hb : b ∈ pool) (hc : c ∈ pool) (hab : Before browser a b) (hbc : Before browser b c) :
    Before browser a c := by
  have hne : a ≠ c := by
    rintro rfl
    exact hab.asymm hcmp hbc
  exact (hdist.before_or hcmp ha hc hne).resolve_right
    (hinv.no_cycle hcmp ha hb hc hab hbc)

/-! ## The sort -/

theorem Before.pos (hcmp : Collation browser.localeCompare) (hba : Before browser b a) :
    0 < compareMessages browser a b := by
  by_cases hdec : decimal a.id ∧ decimal b.id
  · have hid := (before_of_decimal hdec.2 hdec.1).mp hba
    rw [compareMessages, if_pos hdec]
    rcases hid with hnum | ⟨hid, hdom⟩
    · have hne : a.id ≠ b.id := fun h => hnum.ne (by rw [Message.number, Message.number, h])
      have hnot : ¬ Nat.ofDigitChars 10 a.id.toList 0 < Nat.ofDigitChars 10 b.id.toList 0 :=
        Nat.lt_asymm hnum
      rw [if_neg hne, if_neg hnot]
      exact Int.one_pos
    · rw [if_pos hid.symm]
      exact (hcmp.neg_iff _ _).mp hdom
  · rw [compareMessages, if_neg hdec]
    exact (hcmp.neg_iff _ _).mp ((before_of_not_decimal fun h => hdec h.symm).mp hba)

theorem compareMessages_self (hcmp : Collation browser.localeCompare) :
    compareMessages browser a a = 0 := by
  rw [compareMessages, if_pos rfl, hcmp.refl, hcmp.refl, ite_self]

/-- What the sort asks of two messages. -/
theorem Distinguished.le_iff (hcmp : Collation browser.localeCompare)
    (h : Distinguished browser pool) (ha : a ∈ pool) (hb : b ∈ pool) :
    compareMessages browser a b ≤ 0 ↔ a = b ∨ Before browser a b := by
  constructor
  · intro hle
    by_cases hab : a = b
    · exact .inl hab
    · refine .inr ((h.before_or hcmp ha hb hab).resolve_right fun hba => ?_)
      exact absurd (hba.pos hcmp) (not_lt.mpr hle)
  · rintro (rfl | hab)
    · exact (compareMessages_self hcmp).le
    · exact Int.le_of_lt hab

theorem strictWeakOn (hcmp : Collation browser.localeCompare) (hdist : Distinguished browser pool)
    (hinv : Uninverted browser pool) : StrictWeakOn browser pool where
  irrefl := fun _ _ => Before.irrefl hcmp
  trans := fun _ ha _ hb _ hc => Before.trans_of_mem hcmp hdist hinv ha hb hc
  tied_trans := by
    -- tied messages of the pool are the same message
    have heq : ∀ a ∈ pool, ∀ b ∈ pool, Tied browser a b → a = b := by
      intro a ha b hb htied
      by_contra hne
      exact (hdist.before_or hcmp ha hb hne).elim htied.1 htied.2
    intro a ha b hb c _ hab hbc
    rwa [heq a ha b hb hab]

/-- The comparison is consistent on messages of the pool. -/
theorem consistentOn (hcmp : Collation browser.localeCompare)
    (hdist : Distinguished browser pool) (hinv : Uninverted browser pool)
    {messages : List Message} (hmem : ∀ m ∈ messages, m ∈ pool) :
    ConsistentOn (compareMessages browser) messages where
  refl a _ := compareMessages_self hcmp
  neg_iff a ha b hb := by
    refine ⟨fun hab => Before.pos hcmp hab, fun hpos => ?_⟩
    have hne : a ≠ b := by
      rintro rfl
      exact hpos.ne' (compareMessages_self hcmp)
    refine (hdist.before_or hcmp (hmem a ha) (hmem b hb) hne).resolve_right fun hba => ?_
    exact absurd hpos (not_lt.mpr (Int.le_of_lt hba))
  trans a ha b hb c hc := by
    have ha := hmem a ha
    have hb := hmem b hb
    have hc := hmem c hc
    rw [hdist.le_iff hcmp ha hb, hdist.le_iff hcmp hb hc, hdist.le_iff hcmp ha hc]
    rintro (rfl | hab) (rfl | hbc)
    · exact .inl rfl
    · exact .inr hbc
    · exact .inr hab
    · exact .inr (hab.trans_of_mem hcmp hdist hinv ha hb hc hbc)

theorem sortDetermined (hcmp : Collation browser.localeCompare)
    (hdist : Distinguished browser pool) (hinv : Uninverted browser pool) :
    SortDetermined browser pool := by
  intro engine messages hmem messages' hperm
  have hmem' : ∀ m ∈ messages', m ∈ pool := fun m hm => hmem m (hperm.mem_iff.mp hm)
  have hsort : ∀ l, (∀ m ∈ l, m ∈ pool) → sortMessages { browser with arraySort := engine } l =
      l.insertionSort fun left right => compareMessages browser left right ≤ 0 := fun l hl =>
    engine.stable (compareMessages browser) l (consistentOn hcmp hdist hinv hl)
  rw [hsort messages hmem, hsort messages' hmem']
  refine PoolSort.insertionSort_eq_of_perm (p := (· ∈ pool)) ?_ ?_ ?_ hmem hperm
  · intro a b ha hb
    rw [hdist.le_iff hcmp ha hb, hdist.le_iff hcmp hb ha]
    by_cases hab : a = b
    · exact .inl (.inl hab)
    · exact (hdist.before_or hcmp ha hb hab).imp .inr .inr
  · exact fun a b c ha hb hc =>
      (consistentOn hcmp hdist hinv fun _ hm => hm).trans a ha b hb c hc
  · intro a b ha hb
    rw [hdist.le_iff hcmp ha hb, hdist.le_iff hcmp hb ha]
    rintro (hab | hab) (hba | hba)
    · exact hab
    · exact hab
    · exact hba.symm
    · exact absurd hba (hab.asymm hcmp)

/-- Two messages and the same two the other way round. -/
theorem SortDetermined.distinguished (hcmp : Collation browser.localeCompare)
    (h : SortDetermined browser pool) : Distinguished browser pool := by
  intro a ha b hb hne
  have hmem : ∀ m ∈ [b, a], m ∈ pool := by
    intro m hm
    rcases List.mem_pair.mp hm with rfl | rfl
    · exact hb
    · exact ha
  have hsame : [a, b].insertionSort (fun left right => compareMessages browser left right ≤ 0) =
      [b, a].insertionSort fun left right => compareMessages browser left right ≤ 0 :=
    h insertionEngine [b, a] hmem [a, b] (List.Perm.swap b a [])
  have hiff := (PoolSort.insertionSort_pair hsame).resolve_left hne
  unfold compareMessages at hiff
  by_cases hdec : decimal a.id ∧ decimal b.id
  · rw [if_pos hdec, if_pos hdec.symm] at hiff
    rw [if_pos hdec]
    by_cases hid : a.id = b.id
    · rw [if_pos hid, if_pos hid.symm] at hiff
      refine .inr ⟨hid, fun hzero => ?_⟩
      have := hcmp.eq_zero_symm hzero
      omega
    · rw [if_neg hid, if_neg (Ne.symm hid)] at hiff
      refine .inl fun hnum => ?_
      unfold Message.number at hnum
      rw [hnum] at hiff
      simp at hiff
  · rw [if_neg hdec, if_neg fun h => hdec h.symm] at hiff
    rw [if_neg hdec]
    intro hzero
    have := hcmp.eq_zero_symm hzero
    omega

/-- A provisional message between two confirmed ones closes a cycle. -/
theorem StrictWeakOn.uninverted (h : StrictWeakOn browser pool) : Uninverted browser pool := by
  intro a ha b hb m hm hda hdb hdm hid ⟨hbm, hma⟩
  have hab : Before browser a b := (before_of_decimal hda hdb).mpr hid
  have hbm : Before browser b m := (before_of_not_decimal fun h => hdm h.2).mpr hbm
  have hma : Before browser m a := (before_of_not_decimal fun h => hdm h.1).mpr hma
  have ham := h.trans a ha b hb m hm hab hbm
  exact h.irrefl a ha (h.trans a ha m hm a ha ham hma)

end

/-- The comparison is a strict weak order on a pool of messages, and their
sort is determined, just when no two of them share a sort key and no
provisional one was created between two confirmed ones whose ids have the
other order. -/
theorem ordered_iff (browser : Browser) (hcmp : Collation browser.localeCompare)
    (pool : List Message) :
    StrictWeakOn browser pool ∧ SortDetermined browser pool ↔
      Distinguished browser pool ∧ Uninverted browser pool := by
  constructor
  · rintro ⟨hweak, hsort⟩
    exact ⟨hsort.distinguished hcmp, hweak.uninverted⟩
  · rintro ⟨hdist, hinv⟩
    exact ⟨strictWeakOn hcmp hdist hinv, sortDetermined hcmp hdist hinv⟩

theorem sampleBrowser_neg_iff (s t : String) :
    sampleBrowser.localeCompare s t < 0 ↔ s < t := by
  unfold sampleBrowser
  dsimp only
  by_cases heq : s = t
  · simp [heq]
  · by_cases hlt : s < t
    · simp [heq, hlt]
    · simp [heq, hlt]

theorem sampleBrowser_pos_iff (s t : String) :
    0 < sampleBrowser.localeCompare s t ↔ t < s := by
  unfold sampleBrowser
  dsimp only
  by_cases heq : s = t
  · simp [heq]
  · by_cases hlt : s < t
    · simp [heq, hlt, String.lt_asymm hlt]
    · have hgt : t < s := Std.lt_of_le_of_ne (String.not_lt.mp hlt) (Ne.symm heq)
      simp [heq, hlt, hgt]

theorem sampleBrowser_collation : Collation sampleBrowser.localeCompare where
  refl := fun s => if_pos rfl
  neg_iff := by
    intro s t
    rw [sampleBrowser_neg_iff, sampleBrowser_pos_iff]
  trans := by
    intro s t u hst htu
    have hst := mt (sampleBrowser_pos_iff s t).mpr (Int.not_lt.mpr hst)
    have htu := mt (sampleBrowser_pos_iff t u).mpr (Int.not_lt.mpr htu)
    refine Int.not_lt.mp (mt (sampleBrowser_pos_iff s u).mp ?_)
    exact String.not_lt.mpr (String.le_trans (String.not_lt.mp hst) (String.not_lt.mp htu))

/-- A message with its id and the minute it was created in. -/
def stamped (id minute : String) : Message where
  id := id
  originDomain := "kaede.example"
  createdAt := "2026-07-20T10:" ++ minute ++ ":00Z"

/-- A provisional message after one confirmed message and before another. -/
def alignedClocks : List Message :=
  [stamped "1" "00", stamped "pending-x" "01", stamped "2" "02"]

/-- The server that gave id 1 has a clock two minutes ahead of the one that
gave id 2. -/
def skewedClocks : List Message :=
  [stamped "1" "02", stamped "2" "00", stamped "pending-x" "01"]

theorem alignedClocks_ordered :
    StrictWeakOn sampleBrowser alignedClocks ∧ SortDetermined sampleBrowser alignedClocks :=
  (ordered_iff sampleBrowser sampleBrowser_collation _).mpr (by decide)

/-- The same messages with the first at the end. -/
def rotatedClocks : List Message :=
  [stamped "2" "00", stamped "pending-x" "01", stamped "1" "02"]

/-- Each of the three messages is before the next, and the first before them
in turn: both lists stay as they are. -/
theorem skewedClocks_cycle :
    ¬ StrictWeakOn sampleBrowser skewedClocks ∧ ¬ SortDetermined sampleBrowser skewedClocks := by
  constructor
  · intro h
    exact absurd h.uninverted (by decide)
  · intro h
    have hsort := h insertionEngine skewedClocks (fun _ hm => hm) rotatedClocks (by decide)
    exact absurd hsort (by decide)

end Timeline

end Kaede
