import Kaede.Recurrence

/-!
# The series a rule gives

A rule with no end gives one series of times from its start. Each event
carries a rule that starts with the event itself, so the rule is anchored
anew at every step: the phase of a biweekly rule, the day of a monthly
one and the date of a yearly one are read off the latest event.

They are read off a member of the series, and a member keeps them
(`nextRuleOccurrence_withStart`): from there on the rule with the new
start and the rule as it was give the same times, however far a catch-up
has to jump. `FollowsSeries` is what the events are for, in terms of the
first rule alone.
-/

namespace Kaede

namespace RecurrenceRule

variable {r : RecurrenceRule} {fuel : Nat} {c d e : CivilTime}

/-! ## Searches -/

theorem searchDays_eq_ok {step : Nat} {p : CivilTime → Prop} [DecidablePred p]
    (h : searchDays fuel step p c = .ok e) : p e ∧ c.ordinal + step ≤ e.ordinal := by
  induction fuel generalizing c with
  | zero => cases h
  | succ fuel ih =>
      obtain ⟨next, hnext, h⟩ := found_bind_eq_ok.mp h
      have hord := (CivilTime.ordinal_addDays hnext).1
      split at h
      · rename_i hp
        obtain rfl := Except.ok.inj h
        exact ⟨hp, by omega⟩
      · obtain ⟨hp, hle⟩ := ih h
        exact ⟨hp, by omega⟩

/-- A search reads its predicate on later days only. -/
theorem searchDays_congr {p q : CivilTime → Prop} [DecidablePred p] [DecidablePred q]
    (h : ∀ d : CivilTime, c.ordinal < d.ordinal → (p d ↔ q d)) :
    searchDays fuel 1 p c = searchDays fuel 1 q c := by
  induction fuel generalizing c with
  | zero => rfl
  | succ fuel ih =>
      rw [searchDays, searchDays]
      cases hnext : c.addDays 1 with
      | none => rfl
      | some next =>
          have hord := (CivilTime.ordinal_addDays hnext).1
          simp only [found, ok_bind]
          have hrest : searchDays fuel 1 p next = searchDays fuel 1 q next :=
            ih fun d hd => h d (by omega)
          have hp : p next ↔ q next := h next (by omega)
          by_cases hq : q next
          · rw [if_pos (hp.mpr hq), if_pos hq]
          · rw [if_neg (fun hp' => hq (hp.mp hp')), if_neg hq, hrest]

theorem searchMonths_eq_ok {candidateIn : Nat → Nat → Except RecurrenceStop (Option CivilTime)}
    {ym : Nat × Nat} (h : searchMonths candidateIn c fuel ym = .ok e) :
    c.instant < e.instant ∧ ∃ year month, candidateIn year month = .ok (some e) := by
  induction fuel generalizing ym with
  | zero => cases h
  | succ fuel ih =>
      obtain ⟨candidate, hcandidate, h⟩ := bind_eq_ok.mp h
      cases candidate with
      | none => exact ih h
      | some found =>
          dsimp only at h
          split at h
          · rename_i hlater
            obtain rfl := Except.ok.inj h
            exact ⟨hlater, _, _, hcandidate⟩
          · exact ih h

theorem searchYears_eq_ok {month day year : Nat} (h : searchYears c month day fuel year = .ok e) :
    c.instant < e.instant ∧ e.month = month ∧ e.day = day := by
  induction fuel generalizing year with
  | zero => cases h
  | succ fuel ih =>
      rw [searchYears] at h
      split at h
      · rename_i found hfound
        split at h
        · rename_i hlater
          obtain rfl := Except.ok.inj h
          obtain ⟨-, hmonth, hday, -⟩ := CivilTime.fields_of_ofDate? hfound
          exact ⟨hlater, hmonth, hday⟩
        · exact ih h
      · exact ih h

/-! ## Members keep the anchor -/

/-- An occurrence is later than the time it is searched from. -/
theorem lt_nextRuleOccurrence (hinterval : 1 ≤ r.interval)
    (h : r.nextRuleOccurrence fuel c = .ok e) : c.instant < e.instant := by
  unfold nextRuleOccurrence at h
  cases hfrequency : r.frequency with
  | daily =>
      simp only [hfrequency] at h
      have hle := (searchDays_eq_ok h).2
      exact CivilTime.instant_lt_of_ordinal_lt (by omega)
  | weekly =>
      simp only [hfrequency] at h
      cases hdays : r.byWeekday with
      | none =>
          simp only [hdays, found_eq_ok] at h
          have hord := (CivilTime.ordinal_addDays h).1
          exact CivilTime.instant_lt_of_ordinal_lt (by omega)
      | some days =>
          simp only [hdays, found_bind_eq_ok] at h
          obtain ⟨target, -, h⟩ := h
          have hle := (searchDays_eq_ok h).2
          exact CivilTime.instant_lt_of_ordinal_lt (by omega)
  | monthly =>
      simp only [hfrequency] at h
      cases hselectors : r.byNWeekday with
      | none =>
          simp only [hselectors] at h
          exact (searchMonths_eq_ok h).1
      | some selectors =>
          simp only [hselectors, found_bind_eq_ok] at h
          obtain ⟨selector, -, h⟩ := h
          exact (searchMonths_eq_ok h).1
  | yearly =>
      simp only [hfrequency] at h
      obtain ⟨month, -, h⟩ := bind_eq_ok.mp h
      obtain ⟨day, -, h⟩ := bind_eq_ok.mp h
      exact (searchYears_eq_ok h).1

/-- A later day is in the phase of a matching day if and only if it is in
the phase of the rule. -/
theorem weeklyMatch_withStart {target : Nat} (he : r.WeeklyMatch target e)
    (hlater : e.ordinal ≤ d.ordinal) :
    (r.withStart e).WeeklyMatch target d ↔ r.WeeklyMatch target d := by
  obtain ⟨-, hnonneg, hphase⟩ := he
  have hsum := CivilTime.weeksSince_trans d e r.start
  have hge := CivilTime.weeksSince_nonneg hlater
  have hmod : d.weeksSince r.start % r.interval = d.weeksSince e % r.interval := by
    obtain ⟨k, hk⟩ := Int.dvd_of_emod_eq_zero hphase
    rw [hsum, hk, Int.add_mul_emod_self_left]
  show d.weekday = target ∧ 0 ≤ d.weeksSince e ∧ d.weeksSince e % r.interval = 0 ↔
    d.weekday = target ∧ 0 ≤ d.weeksSince r.start ∧ d.weeksSince r.start % r.interval = 0
  rw [hmod, hsum]
  constructor
  · rintro ⟨hday, -, hzero⟩
    exact ⟨hday, by omega, hzero⟩
  · rintro ⟨hday, -, hzero⟩
    exact ⟨hday, hge, hzero⟩

theorem selected_of_ok {selector : Option (List Nat)} {own value new : Nat}
    (h : selected selector own = .ok value) (hnew : new = value) :
    selected selector new = selected selector own := by
  cases selector with
  | none =>
      obtain rfl : own = value := Except.ok.inj h
      rw [hnew]
  | some values => rfl

/-- The rule started at one of its occurrences, and the rule as it was, give
the same next occurrence from there on. -/
theorem nextRuleOccurrence_withStart {fuel' : Nat} (h : r.nextRuleOccurrence fuel c = .ok e)
    (hlater : e.ordinal ≤ d.ordinal) :
    (r.withStart e).nextRuleOccurrence fuel' d = r.nextRuleOccurrence fuel' d := by
  unfold nextRuleOccurrence at *
  rw [show (r.withStart e).frequency = r.frequency from rfl]
  cases hfrequency : r.frequency with
  | daily => rfl
  | weekly =>
      simp only [hfrequency] at h ⊢
      rw [show (r.withStart e).byWeekday = r.byWeekday from rfl]
      cases hdays : r.byWeekday with
      | none => rfl
      | some days =>
          simp only [hdays, found_bind_eq_ok] at h ⊢
          obtain ⟨target, htarget, h⟩ := h
          simp only [htarget, found, ok_bind]
          exact searchDays_congr fun d' hd' =>
            weeklyMatch_withStart (searchDays_eq_ok h).1 (by omega)
  | monthly =>
      simp only [hfrequency] at h ⊢
      rw [show (r.withStart e).byNWeekday = r.byNWeekday from rfl]
      cases hselectors : r.byNWeekday with
      | some selectors => rfl
      | none =>
          simp only [hselectors] at h ⊢
          obtain ⟨-, year, month, hcandidate⟩ := searchMonths_eq_ok h
          obtain ⟨-, -, hday, -⟩ := CivilTime.fields_of_ofDate? (Except.ok.inj hcandidate)
          show searchMonths (fun year month => .ok (d.ofDate? year month e.day)) d fuel' _ = _
          rw [hday]
  | yearly =>
      simp only [hfrequency] at h ⊢
      obtain ⟨month, hmonth, h⟩ := bind_eq_ok.mp h
      obtain ⟨day, hday, h⟩ := bind_eq_ok.mp h
      obtain ⟨-, hm, hd⟩ := searchYears_eq_ok h
      show (do
        let month ← selected r.byMonth e.month
        let day ← selected r.byMonthDay e.day
        searchYears d month day fuel' (d.year + 1)) = _
      rw [selected_of_ok hmonth hm, selected_of_ok hday hd]

/-- `r` is `r₀` with another start, and gives the same occurrences from the
day of `c` on. -/
structure AnchoredAt (r r₀ : RecurrenceRule) (c : CivilTime) : Prop where
  same : ∃ start, r = r₀.withStart start
  agree : ∀ fuel d, c.ordinal ≤ d.ordinal →
    r.nextRuleOccurrence fuel d = r₀.nextRuleOccurrence fuel d

theorem AnchoredAt.refl (r : RecurrenceRule) (c : CivilTime) : r.AnchoredAt r c :=
  ⟨⟨r.start, rfl⟩, fun _ _ _ => rfl⟩

/-- Started anew at an occurrence of the first rule. -/
theorem AnchoredAt.withStart {r₀ : RecurrenceRule} (h : r.AnchoredAt r₀ c)
    (he : r₀.nextRuleOccurrence fuel d = .ok e) : (r.withStart e).AnchoredAt r₀ e := by
  obtain ⟨start, hstart⟩ := h.same
  have hsame : r.withStart e = r₀.withStart e := by rw [hstart]; rfl
  rw [hsame]
  exact ⟨⟨e, rfl⟩, fun _ _ hlater => nextRuleOccurrence_withStart he hlater⟩

theorem AnchoredAt.accepted {r₀ : RecurrenceRule} (h : r.AnchoredAt r₀ c) :
    r.Accepted ↔ r₀.Accepted := by
  obtain ⟨start, rfl⟩ := h.same
  exact accepted_withStart r₀ start

/-! ## Catching up -/

theorem AnchoredAt.searchWindow {r₀ : RecurrenceRule} {watermark : CivilTime} {rounds : Nat}
    (h : r.AnchoredAt r₀ c) (hinterval : 1 ≤ r₀.interval) (hd : c.ordinal ≤ d.ordinal) :
    r.searchWindow fuel watermark rounds d = r₀.searchWindow fuel watermark rounds d := by
  induction rounds generalizing d with
  | zero => rw [RecurrenceRule.searchWindow, RecurrenceRule.searchWindow]
  | succ rounds ih =>
      rw [RecurrenceRule.searchWindow, RecurrenceRule.searchWindow, h.agree fuel d hd]
      cases hnext : r₀.nextRuleOccurrence fuel d with
      | error stop => rw [error_bind, error_bind]
      | ok next =>
          have hle : d.ordinal ≤ next.ordinal :=
            CivilTime.ordinal_le_of_instant_le
              (Nat.le_of_lt (lt_nextRuleOccurrence hinterval hnext))
          rw [ok_bind, ok_bind, ih (Nat.le_trans hd hle)]

theorem AnchoredAt.nextRecurrenceStart {r₀ : RecurrenceRule} {after : Option CivilTime}
    (h : r.AnchoredAt r₀ c) :
    r.nextRecurrenceStart fuel c after = r₀.nextRecurrenceStart fuel c after := by
  unfold RecurrenceRule.nextRecurrenceStart
  by_cases haccepted : r₀.Accepted
  · have hinterval : 1 ≤ r₀.interval := haccepted.1.1
    simp only [ensure, h.accepted, haccepted, if_true, ok_bind]
    exact h.searchWindow hinterval (Nat.le_refl _)
  · simp only [ensure, h.accepted, haccepted, if_false, error_bind]

/-- The `n`-th time of the series that begins at `start`. -/
def occurrence (fuel : Nat) (r : RecurrenceRule) (start : CivilTime) :
    Nat → Except RecurrenceStop CivilTime
  | 0 => .ok start
  | n + 1 => do
      let t ← occurrence fuel r start n
      r.nextRuleOccurrence fuel t

theorem occurrence_lt {start : CivilTime} {n m : Nat} {t u : CivilTime}
    (hinterval : 1 ≤ r.interval) (ht : r.occurrence fuel start n = .ok t)
    (hu : r.occurrence fuel start m = .ok u) (hnm : n < m) : t.instant < u.instant := by
  induction m generalizing u with
  | zero => omega
  | succ m ih =>
      obtain ⟨v, hv, hu⟩ := bind_eq_ok.mp hu
      have hstep := lt_nextRuleOccurrence hinterval hu
      rcases Nat.lt_succ_iff_lt_or_eq.mp hnm with hlt | rfl
      · exact Nat.lt_trans (ih hv hlt) hstep
      · obtain rfl : t = v := Except.ok.inj (ht.symm.trans hv)
        exact hstep

theorem searchWindow_eq_ok {start watermark : CivilTime} {rounds n : Nat}
    (hc : r.occurrence fuel start n = .ok c)
    (h : r.searchWindow fuel watermark rounds c = .ok e) :
    watermark.instant < e.instant ∧ ∃ m, n < m ∧ r.occurrence fuel start m = .ok e ∧
      ∀ k t, n < k → k < m → r.occurrence fuel start k = .ok t →
        t.instant ≤ watermark.instant := by
  induction rounds generalizing c n with
  | zero => cases h
  | succ rounds ih =>
      obtain ⟨next, hnext, h⟩ := bind_eq_ok.mp h
      have hsucc : r.occurrence fuel start (n + 1) = .ok next := by
        rw [occurrence, hc]
        exact hnext
      split at h
      · rename_i hafter
        obtain rfl := Except.ok.inj h
        exact ⟨hafter, n + 1, Nat.lt_succ_self n, hsucc, fun k _ hk hk' => by omega⟩
      · rename_i hbefore
        obtain ⟨hafter, m, hm, hmem, hskip⟩ := ih hsucc h
        refine ⟨hafter, m, by omega, hmem, fun k t hk hk' ht => ?_⟩
        rcases Nat.lt_or_ge (n + 1) k with hlt | hge
        · exact hskip k t hlt hk' ht
        · obtain rfl : k = n + 1 := by omega
          obtain rfl : t = next := Except.ok.inj (ht.symm.trans hsucc)
          omega

/-- What the search returns is an occurrence of the rule. -/
theorem exists_nextRuleOccurrence_eq {watermark : CivilTime} {rounds : Nat}
    (h : r.searchWindow fuel watermark rounds c = .ok e) :
    ∃ d, r.nextRuleOccurrence fuel d = .ok e := by
  induction rounds generalizing c with
  | zero => cases h
  | succ rounds ih =>
      obtain ⟨next, hnext, h⟩ := bind_eq_ok.mp h
      split at h
      · obtain rfl := Except.ok.inj h
        exact ⟨c, hnext⟩
      · exact ih h

/-- `e` is the first time of the series after both the last event and the
watermark. -/
structure FirstAfter (fuel : Nat) (r : RecurrenceRule) (start last : CivilTime)
    (after : Option CivilTime) (e : CivilTime) : Prop where
  mem : ∃ n, r.occurrence fuel start n = .ok e
  afterLast : last.instant < e.instant
  afterWatermark : (after.getD last).instant < e.instant
  first : ∀ n t, r.occurrence fuel start n = .ok t → last.instant < t.instant →
    (after.getD last).instant < t.instant → e.instant ≤ t.instant

theorem firstAfter_of_nextRecurrenceStart {start : CivilTime} {after : Option CivilTime}
    (hc : ∃ n, r.occurrence fuel start n = .ok c)
    (h : r.nextRecurrenceStart fuel c after = .ok e) : r.FirstAfter fuel start c after e := by
  obtain ⟨haccepted, h⟩ := check_bind_eq_ok.mp h
  have hinterval : 1 ≤ r.interval := (ensure_eq_ok.mp haccepted).1.1
  obtain ⟨n, hn⟩ := hc
  obtain ⟨hafter, m, hnm, hm, hskip⟩ := searchWindow_eq_ok hn h
  refine ⟨⟨m, hm⟩, occurrence_lt hinterval hn hm hnm, hafter, fun k t hk hlast hwatermark => ?_⟩
  -- An earlier member is not after the last event, one between not after the watermark.
  rcases Nat.lt_trichotomy k m with hlt | rfl | hgt
  · rcases Nat.lt_trichotomy k n with hkn | rfl | hnk
    · have := occurrence_lt hinterval hk hn hkn
      omega
    · obtain rfl : t = c := Except.ok.inj (hk.symm.trans hn)
      omega
    · have := hskip k t hnk hlt hk
      omega
  · obtain rfl : t = e := Except.ok.inj (hk.symm.trans hm)
    exact Nat.le_refl _
  · exact Nat.le_of_lt (occurrence_lt hinterval hm hk hgt)

end RecurrenceRule

namespace GuildScheduledEvent

variable {fuel : Nat} {event : GuildScheduledEvent} {rule : RecurrenceRule}

/-- A list of starts that follows the series of one rule, each the first
after the one before and its watermark. -/
inductive FollowsSeries (fuel : Nat) (rule : RecurrenceRule) (start : CivilTime) :
    CivilTime → List Ending → List CivilTime → Prop
  | nil (last : CivilTime) : FollowsSeries fuel rule start last [] []
  | cons {last next : CivilTime} {ending : Ending} {rest : List Ending} {ts : List CivilTime} :
      rule.FirstAfter fuel start last ending.after next →
      FollowsSeries fuel rule start next rest ts →
      FollowsSeries fuel rule start last (ending :: rest) (next :: ts)

/-- One step: the search goes as with the first rule, and what it finds makes
an event with the same duration whose rule starts with it. -/
theorem materializeNextRecurrence_eq {r : RecurrenceRule} (fuel : Nat) (ending : Ending)
    (hrule : event.recurrenceRule = some r) (hanchor : r.AnchoredAt rule event.scheduledStart) :
    materializeNextRecurrence fuel { event with status := ending.status } ending.after =
      match rule.nextRecurrenceStart fuel event.scheduledStart ending.after with
      | .error e => .error e
      | .ok next =>
        if Fits event.duration next then
          .ok (some ⟨.scheduled, some (r.withStart next), next,
            event.duration.map fun d => (next.instant : Int) + d⟩)
        else .error .endOverflow := by
  have hcode : materializeNextRecurrence fuel { event with status := ending.status } ending.after
      = (do
        let next ← r.nextRecurrenceStart fuel event.scheduledStart ending.after
        ensure (∀ e ∈ event.scheduledEnd.map fun e =>
          (next.instant : Int) + (e - event.scheduledStart.instant), e < endOfTime) .endOverflow
        .ok (some ⟨.scheduled, some (r.withStart next), next, event.scheduledEnd.map fun e =>
          (next.instant : Int) + (e - event.scheduledStart.instant)⟩)) := by
    unfold materializeNextRecurrence
    rcases ending.terminal with h | h
    · simp only [h, hrule]
    · simp only [h, hrule]
  rw [hcode, hanchor.nextRecurrenceStart]
  cases rule.nextRecurrenceStart fuel event.scheduledStart ending.after with
  | error stop => rfl
  | ok next =>
      have hend : (event.scheduledEnd.map fun e =>
          (next.instant : Int) + (e - event.scheduledStart.instant))
          = event.duration.map fun d => (next.instant : Int) + d := by
        rw [duration, Option.map_map]
        rfl
      have hfits : (∀ e ∈ event.scheduledEnd.map fun e =>
          (next.instant : Int) + (e - event.scheduledStart.instant), e < endOfTime)
          ↔ Fits event.duration next := by
        rw [hend, Fits]
        cases event.duration <;> simp
      simp only [ok_bind]
      by_cases h : Fits event.duration next
      · rw [ensure, if_pos (hfits.mpr h), ok_bind, if_pos h, hend]
      · rw [ensure, if_neg (mt hfits.mp h), error_bind, if_neg h]

/-- The new event lasts as long as the one before. -/
theorem duration_next {start : CivilTime} {status : ScheduledEventStatus}
    {r : Option RecurrenceRule} (d : Option Int) :
    duration ⟨status, r, start, d.map fun x => (start.instant : Int) + x⟩ = d := by
  cases d with
  | none => rfl
  | some x =>
      show some ((start.instant : Int) + x - start.instant) = some x
      rw [add_sub_cancel_left]

/-- A search that succeeds leads on to a rule that is anchored alike. -/
theorem anchoredAt_next {r : RecurrenceRule} {start next : CivilTime} {after : Option CivilTime}
    (hanchor : r.AnchoredAt rule start)
    (hsearch : rule.nextRecurrenceStart fuel start after = .ok next) :
    (r.withStart next).AnchoredAt rule next := by
  obtain ⟨c, hc⟩ := RecurrenceRule.exists_nextRuleOccurrence_eq (check_bind_eq_ok.mp hsearch).2
  exact hanchor.withStart hc

theorem starts_eq_series {r : RecurrenceRule} (fuel : Nat) (endings : List Ending)
    (hrule : event.recurrenceRule = some r) (hanchor : r.AnchoredAt rule event.scheduledStart) :
    starts fuel event endings
      = series fuel rule event.duration event.scheduledStart (endings.map Ending.after) := by
  induction endings generalizing event r with
  | nil => rfl
  | cons ending rest ih =>
      rw [starts, List.map_cons, series, materializeNextRecurrence_eq fuel ending hrule hanchor]
      cases hsearch : rule.nextRecurrenceStart fuel event.scheduledStart ending.after with
      | error stop => rfl
      | ok next =>
          dsimp only
          by_cases hfits : Fits event.duration next
          · rw [if_pos hfits, if_pos hfits]
            have hrest := @ih ⟨.scheduled, some (r.withStart next), next,
              event.duration.map fun d => (next.instant : Int) + d⟩ _ rfl
              (anchoredAt_next hanchor hsearch)
            rw [duration_next] at hrest
            exact congrArg (List.cons (.ok next)) hrest
          · rw [if_neg hfits, if_neg hfits]

/-- A series that no search ends consists of first times after the last
start and the watermark. -/
theorem followsSeries_of_series {duration : Option Int} {endings : List Ending}
    {start last : CivilTime} {ts : List CivilTime}
    (hmember : ∃ n, rule.occurrence fuel start n = .ok last)
    (h : series fuel rule duration last (endings.map Ending.after) = ts.map .ok) :
    FollowsSeries fuel rule start last endings ts := by
  induction endings generalizing last ts with
  | nil =>
      obtain rfl : ts = [] := List.map_eq_nil_iff.mp h.symm
      exact .nil _
  | cons ending rest ih =>
      rw [List.map_cons, series] at h
      cases hsearch : rule.nextRecurrenceStart fuel last ending.after with
      | error stop =>
          rw [hsearch] at h
          cases ts with
          | nil => cases h
          | cons t ts => cases (List.cons.inj h).1
      | ok next =>
          rw [hsearch] at h
          dsimp only at h
          split at h
          · cases ts with
            | nil => cases h
            | cons t ts =>
                obtain ⟨ht, hts⟩ := List.cons.inj h
                obtain rfl := Except.ok.inj ht
                have hfirst := RecurrenceRule.firstAfter_of_nextRecurrenceStart hmember hsearch
                exact .cons hfirst (ih hfirst.mem hts)
          · cases ts with
            | nil => cases h
            | cons t ts => cases (List.cons.inj h).1

/-- The starts of the events that follow are those that searching again and
again with the first rule gives, wherever the searches end; and they follow
the series of the first rule. -/
theorem reanchoring_preserves_series (fuel : Nat) (event : GuildScheduledEvent)
    (rule : RecurrenceRule) (endings : List Ending) (hrule : event.recurrenceRule = some rule) :
    starts fuel event endings
      = series fuel rule event.duration event.scheduledStart (endings.map Ending.after) ∧
    ∀ ts, starts fuel event endings = ts.map .ok →
      FollowsSeries fuel rule event.scheduledStart event.scheduledStart endings ts := by
  have hseries := starts_eq_series fuel endings hrule
    (RecurrenceRule.AnchoredAt.refl rule event.scheduledStart)
  refine ⟨hseries, fun ts h => ?_⟩
  rw [hseries] at h
  exact followsSeries_of_series ⟨0, rfl⟩ h

/-- 31 January 2024 at noon, monthly. -/
def monthEnd : RecurrenceRule where
  start := ⟨2024, 1, 31, 43200000000, by decide, by decide, by decide, by decide⟩
  frequency := .monthly
  interval := 1
  byWeekday := none
  byNWeekday := none
  byMonth := none
  byMonthDay := none

/-- It lasts an hour. -/
def monthEndEvent : GuildScheduledEvent :=
  ⟨.active, some monthEnd, monthEnd.start, some (monthEnd.start.instant + 3600000000)⟩

/-- The first event runs its course; the second is called off in June, and
the third runs its course too. -/
def springEndings : List Ending :=
  [⟨.completed, .inl rfl, none⟩,
   ⟨.canceled, .inr rfl, some ⟨2024, 6, 2, 0, by decide, by decide, by decide, by decide⟩⟩,
   ⟨.completed, .inl rfl, none⟩]

theorem reanchoring_preserves_series_monthEnd :
    starts 12 monthEndEvent springEndings =
      [.ok ⟨2024, 3, 31, 43200000000, by decide, by decide, by decide, by decide⟩,
        .ok ⟨2024, 7, 31, 43200000000, by decide, by decide, by decide, by decide⟩,
        .ok ⟨2024, 8, 31, 43200000000, by decide, by decide, by decide, by decide⟩] := by
  rw [(reanchoring_preserves_series 12 monthEndEvent monthEnd springEndings rfl).1]
  decide +kernel

end GuildScheduledEvent

end Kaede
