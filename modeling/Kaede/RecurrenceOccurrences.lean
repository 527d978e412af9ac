import Kaede.RecurrenceSearch

/-!
# The times a rule denotes

A rule denotes times of its own, read off its frequency, its interval from
the start on and its selectors: `Denotes` says which, without a word about
how they are looked for. `next_recurrence_start` is to return the first of
them after the start of the current event and a watermark. The start of an
event and that of its rule are the same: `_recurrence_payload` and
`validate_recurrence_projection` insist on it, and an event that is moved
or followed by another takes its rule along.

The searches by day find every time of the rule. Those by month and by year
begin with the month or the year after the start, so a start that comes
before the rule's own date in its month or year makes them pass that date
over (`PassedOver`); nothing else is missed.
-/

namespace Kaede

namespace RecurrenceRule

variable {r : RecurrenceRule} {fuel k : Nat} {c d e t u watermark : CivilTime}
  {after : Option CivilTime}

/-- The date is the `n`-th of its weekday in its month. -/
def IsNth (selector : ScheduledEventNWeekday) (t : CivilTime) : Prop :=
  t.weekday = selector.day ∧ (t.day - 1) / 7 + 1 = selector.n

/-- What the frequency, the interval and the selectors say of a date. -/
def Matches (r : RecurrenceRule) (t : CivilTime) : Prop :=
  match r.frequency with
  | .daily =>
      (t.ordinal - r.start.ordinal) % r.interval = 0 ∧ ∀ days ∈ r.byWeekday, t.weekday ∈ days
  | .weekly =>
      t.weekday ∈ r.byWeekday.getD [r.start.weekday] ∧ t.weeksSince r.start % r.interval = 0
  | .monthly =>
      (t.monthIndex - r.start.monthIndex) % r.interval = 0 ∧
        match r.byNWeekday with
        | none => t.day = r.start.day
        | some selectors => ∃ s ∈ selectors, IsNth s t
  | .yearly =>
      (t.year - r.start.year) % r.interval = 0 ∧ t.month ∈ r.byMonth.getD [r.start.month] ∧
        t.day ∈ r.byMonthDay.getD [r.start.day]

/-- A time of the rule: at the time of day of its start, and not before it. -/
structure Denotes (r : RecurrenceRule) (t : CivilTime) : Prop where
  time : t.time = r.start.time
  fromStart : r.start.ordinal ≤ t.ordinal
  date : r.Matches t

/-- The first time of the rule after its start and the watermark. -/
structure IsFirst (r : RecurrenceRule) (after : Option CivilTime) (e : CivilTime) : Prop where
  denoted : r.Denotes e
  afterStart : r.start.instant < e.instant
  afterWatermark : (after.getD r.start).instant < e.instant
  first : ∀ t, r.Denotes t → r.start.instant < t.instant →
    (after.getD r.start).instant < t.instant → e.instant ≤ t.instant

/-- The rule has a time after its start and the watermark in the very month,
or year, of the start, and others in a later one. -/
def PassedOver (r : RecurrenceRule) (after : Option CivilTime) : Prop :=
  ∃ t u, r.Denotes t ∧ r.start.instant < t.instant ∧
    (after.getD r.start).instant < t.instant ∧ r.Denotes u ∧
    (r.frequency = .monthly ∧ t.monthIndex = r.start.monthIndex ∧
        r.start.monthIndex < u.monthIndex ∨
      r.frequency = .yearly ∧ t.year = r.start.year ∧ r.start.year < u.year)

/-! ## What a search that goes on from date to date finds -/

/-- `ahead c d` says that `d` is one of the dates the search from `c` goes
through; it reaches the first that is after the watermark. -/
theorem searchWindow_first (ahead : CivilTime → CivilTime → Prop)
    (hlt : ∀ {c d}, ahead c d → c.instant < d.instant)
    (htrans : ∀ {c d e}, ahead c d → ahead d e → ahead c e)
    (hstep : ∀ {c e}, r.nextRuleOccurrence fuel c = .ok e →
      ahead c e ∧ ∀ d, ahead c d → d = e ∨ ahead e d)
    {rounds : Nat} (h : r.searchWindow fuel watermark rounds c = .ok e) :
    ahead c e ∧ watermark.instant < e.instant ∧
      ∀ d, ahead c d → watermark.instant < d.instant → e.instant ≤ d.instant := by
  induction rounds generalizing c with
  | zero => cases h
  | succ rounds ih =>
      obtain ⟨next, hnext, h⟩ := bind_eq_ok.mp h
      obtain ⟨hahead, hothers⟩ := hstep hnext
      split at h
      · rename_i hafter
        obtain rfl := Except.ok.inj h
        refine ⟨hahead, hafter, fun d hd _ => ?_⟩
        obtain rfl | hd := hothers d hd
        · exact le_rfl
        · exact (hlt hd).le
      · rename_i hbefore
        obtain ⟨hahead', hafter, hfirst⟩ := ih h
        refine ⟨htrans hahead hahead', hafter, fun d hd hdafter => ?_⟩
        obtain rfl | hd := hothers d hd
        · exact absurd hdafter hbefore
        · exact hfirst d hd hdafter

/-! ## Days -/

/-- A search by day finds the first day of its kind. -/
theorem searchDays_first {p : CivilTime → Prop} [DecidablePred p]
    (h : searchDays fuel 1 p c = .ok e) :
    (p e ∧ e.time = c.time ∧ c.ordinal < e.ordinal) ∧
      ∀ d, p d → d.time = c.time → c.ordinal < d.ordinal → e.ordinal ≤ d.ordinal := by
  induction fuel generalizing c with
  | zero => cases h
  | succ fuel ih =>
      obtain ⟨next, hnext, h⟩ := found_bind_eq_ok.mp h
      obtain ⟨hord, htime⟩ := CivilTime.ordinal_addDays hnext
      split at h
      · rename_i hp
        obtain rfl := Except.ok.inj h
        exact ⟨⟨hp, htime, by omega⟩, fun d _ _ hd => by omega⟩
      · rename_i hp
        obtain ⟨⟨he, hetime, heord⟩, hfirst⟩ := ih h
        refine ⟨⟨he, hetime.trans htime, by omega⟩, fun d hd hdtime hdord => ?_⟩
        rcases Nat.lt_or_ge next.ordinal d.ordinal with hlt | hge
        · exact hfirst d hd (hdtime.trans htime.symm) hlt
        · obtain rfl : d = next := CivilTime.eq_of_ordinal_eq (by omega) (hdtime.trans htime.symm)
          exact absurd hd hp

/-- The days of a kind that lie ahead. -/
def DayAhead (p : CivilTime → Prop) (c d : CivilTime) : Prop :=
  p d ∧ d.time = c.time ∧ c.ordinal < d.ordinal

theorem searchWindow_days {p : CivilTime → Prop} [DecidablePred p]
    (hnext : ∀ c, r.nextRuleOccurrence fuel c = searchDays fuel 1 p c) {rounds : Nat}
    (h : r.searchWindow fuel watermark rounds c = .ok e) :
    DayAhead p c e ∧ watermark.instant < e.instant ∧
      ∀ d, DayAhead p c d → watermark.instant < d.instant → e.instant ≤ d.instant := by
  refine searchWindow_first (DayAhead p) (fun h => CivilTime.instant_lt_of_ordinal_lt h.2.2)
    (fun h h' => ⟨h'.1, h'.2.1.trans h.2.1, h.2.2.trans h'.2.2⟩) (fun {c e} h => ?_) h
  rw [hnext] at h
  obtain ⟨hahead, hfirst⟩ := searchDays_first h
  refine ⟨hahead, fun d hd => ?_⟩
  obtain hlt | heq := Nat.lt_or_eq_of_le (hfirst d hd.1 hd.2.1 hd.2.2)
  · exact .inr ⟨hd.1, hd.2.1.trans hahead.2.1.symm, hlt⟩
  · exact .inl (CivilTime.eq_of_ordinal_eq heq.symm (hd.2.1.trans hahead.2.1.symm))

/-- The days so many days apart that lie ahead. -/
def StepAhead (n : Nat) (c d : CivilTime) : Prop :=
  d.time = c.time ∧ c.ordinal < d.ordinal ∧ (d.ordinal - c.ordinal) % n = 0

theorem searchWindow_steps {n : Nat} (hn : 1 ≤ n)
    (hnext : ∀ c, r.nextRuleOccurrence fuel c = found (c.addDays n) .dateOverflow) {rounds : Nat}
    (h : r.searchWindow fuel watermark rounds c = .ok e) :
    StepAhead n c e ∧ watermark.instant < e.instant ∧
      ∀ d, StepAhead n c d → watermark.instant < d.instant → e.instant ≤ d.instant := by
  refine searchWindow_first (StepAhead n) (fun h => CivilTime.instant_lt_of_ordinal_lt h.2.1)
    (fun {c d e} h h' => ⟨h'.1.trans h.1, h.2.1.trans h'.2.1, ?_⟩) (fun {c e} h => ?_) h
  · have hsum : e.ordinal - c.ordinal = (e.ordinal - d.ordinal) + (d.ordinal - c.ordinal) := by
      have := h.2.1
      have := h'.2.1
      omega
    rw [hsum, Nat.add_mod, h.2.2, h'.2.2]
    simp
  · rw [hnext, found_eq_ok] at h
    obtain ⟨hord, htime⟩ := CivilTime.ordinal_addDays h
    have hself : e.ordinal - c.ordinal = n := by omega
    refine ⟨⟨htime, by omega, by rw [hself, Nat.mod_self]⟩, fun d hd => ?_⟩
    obtain ⟨hdtime, hdord, hdmod⟩ := hd
    obtain ⟨m, hm⟩ := Nat.dvd_of_mod_eq_zero hdmod
    obtain hone | hmore : m = 1 ∨ 2 ≤ m := by
      rcases m with _ | _ | m
      · omega
      · exact .inl rfl
      · exact .inr (by omega)
    · rw [hone, Nat.mul_one] at hm
      exact .inl (CivilTime.eq_of_ordinal_eq (by omega) (hdtime.trans htime.symm))
    · have hle := Nat.mul_le_mul_left n hmore
      have hrest : d.ordinal - e.ordinal = n * (m - 1) := by
        rw [Nat.mul_sub, Nat.mul_one]
        omega
      refine .inr ⟨hdtime.trans htime.symm, by omega, ?_⟩
      rw [hrest, Nat.mul_mod_right]

/-! ## Months and years -/

theorem monthAt_monthIndex (t : CivilTime) : monthAt t.monthIndex = (t.year, t.month) := by
  have hmonth := t.month_ok
  unfold monthAt CivilTime.monthIndex
  exact Prod.ext (by simp only; omega) (by simp only; omega)

theorem ofDate?_self (h : t.time = c.time) : c.ofDate? t.year t.month t.day = some t := by
  rw [← CivilTime.ofDate?_congr h, CivilTime.ofDate?_eq_some t.year_ok t.month_ok t.day_ok]

theorem ofDate?_eq_some_iff {year month day : Nat} : c.ofDate? year month day = some t ↔
    t.year = year ∧ t.month = month ∧ t.day = day ∧ t.time = c.time := by
  constructor
  · exact CivilTime.fields_of_ofDate?
  · rintro ⟨rfl, rfl, rfl, htime⟩
    exact ofDate?_self htime

/-- The day that is computed for the `n`-th weekday is the only one. -/
theorem nWeekdayDate_eq_some_iff {selector : ScheduledEventNWeekday} {year month : Nat}
    (hn : 1 ≤ selector.n) (hday : selector.day ≤ 6) :
    nWeekdayDate selector c year month = some t ↔
      t.year = year ∧ t.month = month ∧ t.time = c.time ∧ IsNth selector t := by
  have hcount (first : CivilTime) (hyear : first.year = t.year) (hmonth : first.month = t.month)
      (hfirst : first.day = 1) :
      t.day = 1 + (((selector.day : Int) - first.weekday) % 7).toNat + 7 * (selector.n - 1) ↔
        IsNth selector t := by
    have ht := t.day_ok
    have hordinal : t.ordinal + 1 = first.ordinal + t.day := by
      rw [CivilTime.ordinal, CivilTime.ordinal, hyear, hmonth, hfirst]
      omega
    unfold IsNth CivilTime.weekday
    omega
  unfold nWeekdayDate
  constructor
  · intro h
    obtain ⟨first, hfirst, h⟩ := Option.bind_eq_some_iff.mp h
    obtain ⟨hfyear, hfmonth, hfday, hftime⟩ := CivilTime.fields_of_ofDate? hfirst
    obtain ⟨hyear, hmonth, htday, htime⟩ := CivilTime.fields_of_ofDate? h
    exact ⟨hyear, hmonth, htime.trans hftime, (hcount first (hfyear.trans hyear.symm)
      (hfmonth.trans hmonth.symm) hfday).mp htday⟩
  · rintro ⟨rfl, rfl, htime, hnth⟩
    have hdays := CivilTime.le_daysInMonth t.year t.month_ok
    obtain ⟨first, hfirst⟩ : ∃ first, c.ofDate? t.year t.month 1 = some first :=
      ⟨_, CivilTime.ofDate?_eq_some t.year_ok t.month_ok ⟨le_rfl, by omega⟩⟩
    obtain ⟨hfyear, hfmonth, hfday, hftime⟩ := CivilTime.fields_of_ofDate? hfirst
    rw [hfirst, Option.bind_some, ofDate?_eq_some_iff]
    exact ⟨rfl, rfl, (hcount first hfyear hfmonth hfday).mpr hnth, htime.trans hftime.symm⟩

/-- A stepping search goes through the times of the rule in later months or
years. -/
def Stepping.Exact (s : Stepping r) : Prop :=
  ∀ t, t ∈ s.later r.start ↔ r.Denotes t ∧ s.position r.start < s.position t

theorem Stepping.searchWindow_first (s : Stepping r) {rounds : Nat}
    (h : r.searchWindow fuel watermark rounds c = .ok e) :
    e ∈ s.later c ∧ watermark.instant < e.instant ∧
      ∀ d ∈ s.later c, watermark.instant < d.instant → e.instant ≤ d.instant := by
  refine RecurrenceRule.searchWindow_first (fun c d => d ∈ s.later c) (fun h => ?_)
    (fun {c d e} h h' => ?_) (fun {c e} h => ?_) h
  · obtain ⟨k, hk, hdate⟩ := s.mem_later.mp h
    exact s.instant_lt hdate hk
  · obtain ⟨k, hk, hd⟩ := s.mem_later.mp h
    obtain ⟨k', hk', he⟩ := s.mem_later.mp h'
    obtain ⟨hposition, htime⟩ := s.position_dates hd
    rw [s.dates_congr htime] at he
    exact s.mem_later.mpr ⟨k', by omega, he⟩
  · rw [s.later_of_next h]
    exact ⟨List.mem_cons_self, fun d hd => List.mem_cons.mp hd⟩

/-- What a stepping search returns is first if the rule's own month or year
has nothing to offer; and if it has, something else is returned. -/
theorem Stepping.first_iff (s : Stepping r) (hexact : s.Exact) (haccepted : r.Accepted) :
    (∀ fuel e, r.nextRecurrenceStart fuel r.start after = .ok e → r.IsFirst after e) ↔
      ¬∃ t u, r.Denotes t ∧ r.start.instant < t.instant ∧
        (after.getD r.start).instant < t.instant ∧ r.Denotes u ∧
        s.position t = s.position r.start ∧ s.position r.start < s.position u := by
  constructor
  · rintro hfirst ⟨t, u, ht, hstart, hafter, hu, hsame, hlater⟩
    have hmem : u ∈ s.later r.start := (hexact u).mpr ⟨hu, hlater⟩
    cases hdates : s.later r.start with
    | nil =>
        rw [hdates] at hmem
        cases hmem
    | cons e ts =>
        obtain ⟨-, n, hn⟩ := s.later_eq_cons hdates
        have he := (hexact e).mp (by rw [hdates]; exact List.mem_cons_self)
        have hte : t.instant < e.instant := by
          refine CivilTime.instant_lt_of_ordinal_lt (s.ordinal_lt ?_)
          rw [hsame]
          exact he.2
        have hreturns : r.nextRecurrenceStart n r.start after = .ok e := by
          rw [nextRecurrenceStart_of_accepted haccepted, searchWindow_of_next (hn n le_rfl),
            ok_bind, if_pos (hafter.trans hte)]
        have := (hfirst n e hreturns).first t ht hstart hafter
        omega
  · intro hnone fuel e h
    rw [nextRecurrenceStart_of_accepted haccepted] at h
    obtain ⟨hmem, hafter, hfirst⟩ := s.searchWindow_first h
    obtain ⟨he, hlater⟩ := (hexact e).mp hmem
    have hstart := CivilTime.instant_lt_of_ordinal_lt (s.ordinal_lt hlater)
    refine ⟨he, hstart, hafter, fun t ht htstart htafter => ?_⟩
    rcases Nat.lt_trichotomy (s.position r.start) (s.position t) with hlt | heq | hgt
    · exact hfirst t ((hexact t).mpr ⟨ht, hlt⟩) htafter
    · exact absurd ⟨t, e, ht, htstart, htafter, he, heq.symm, hlater⟩ hnone
    · have := s.ordinal_lt hgt
      have := ht.fromStart
      omega

theorem Accepted.interval_eq (h : r.Accepted) (hfrequency : r.frequency ≠ .weekly) :
    r.interval = 1 :=
  h.2.2.2.2.2.2.1.resolve_right fun hweekly => hfrequency hweekly.1

/-- A later month or year makes a date of the rule a time of it. -/
theorem denotes_iff (s : Stepping r) (h : s.position r.start < s.position t) :
    r.Denotes t ↔ t.time = r.start.time ∧ r.Matches t :=
  ⟨fun ht => ⟨ht.time, ht.date⟩, fun ht => ⟨ht.1, (s.ordinal_lt h).le, ht.2⟩⟩

theorem exact_iff (s : Stepping r) : s.Exact ↔ ∀ t, s.position r.start < s.position t →
    (s.dates r.start (s.position t) = some t ↔ t.time = r.start.time ∧ r.Matches t) := by
  constructor
  · intro h t ht
    rw [← denotes_iff s ht]
    constructor
    · intro hdate
      exact ((h t).mp (s.mem_later.mpr ⟨_, ht, hdate⟩)).1
    · intro hdenotes
      obtain ⟨k, -, hdate⟩ := s.mem_later.mp ((h t).mpr ⟨hdenotes, ht⟩)
      rwa [(s.position_dates hdate).1]
  · intro h t
    rw [s.mem_later]
    constructor
    · rintro ⟨k, hk, hdate⟩
      obtain rfl := (s.position_dates hdate).1
      exact ⟨(denotes_iff s hk).mpr ((h t hk).mp hdate), hk⟩
    · rintro ⟨hdenotes, ht⟩
      exact ⟨_, ht, (h t ht).mpr ((denotes_iff s ht).mp hdenotes)⟩

theorem exact_ofMonthDay (haccepted : r.Accepted) (hfrequency : r.frequency = .monthly)
    (hselector : r.byNWeekday = none) : (Stepping.ofMonthDay hfrequency hselector).Exact := by
  rw [exact_iff]
  intro t _
  have hinterval := haccepted.interval_eq (by rw [hfrequency]; decide)
  show r.start.ofDate? (monthAt t.monthIndex).1 (monthAt t.monthIndex).2 r.start.day = some t ↔ _
  rw [monthAt_monthIndex, ofDate?_eq_some_iff]
  simp only [Matches, hfrequency, hselector, hinterval, Nat.mod_one, true_and]
  exact and_comm

theorem exact_ofNWeekday (haccepted : r.Accepted) (hfrequency : r.frequency = .monthly)
    {selector : ScheduledEventNWeekday} (hselector : r.byNWeekday = some [selector]) :
    (Stepping.ofNWeekday hfrequency hselector).Exact := by
  rw [exact_iff]
  intro t _
  have hinterval := haccepted.interval_eq (by rw [hfrequency]; decide)
  obtain ⟨hn, hday⟩ := (haccepted.2.2.1 _ hselector).2 selector (List.mem_singleton_self _)
  show nWeekdayDate selector r.start (monthAt t.monthIndex).1 (monthAt t.monthIndex).2 = some t ↔ _
  rw [monthAt_monthIndex, nWeekdayDate_eq_some_iff hn.1 hday]
  simp only [Matches, hfrequency, hselector, hinterval, Nat.mod_one, true_and,
    List.mem_singleton, exists_eq_left]

/-- The one value of a selector of one value. -/
theorem mem_getD_iff {selector : Option (List Nat)} {own value : Nat}
    (h : ∀ values ∈ selector, values.length = 1) :
    value ∈ selector.getD [own] ↔ value = (selector.bind List.head?).getD own := by
  cases selector with
  | none => exact List.mem_singleton
  | some values =>
      obtain ⟨v, rfl⟩ := List.length_eq_one_iff.mp (h values rfl)
      exact List.mem_singleton

theorem exact_ofYearDay (haccepted : r.Accepted) (hfrequency : r.frequency = .yearly) :
    (Stepping.ofYearDay hfrequency haccepted.selected_month haccepted.selected_day).Exact := by
  rw [exact_iff]
  intro t _
  have hinterval := haccepted.interval_eq (by rw [hfrequency]; decide)
  show r.start.ofDate? t.year r.ruleMonth r.ruleDay = some t ↔ _
  rw [ofDate?_eq_some_iff]
  simp only [Matches, hfrequency, hinterval, Nat.mod_one, true_and,
    mem_getD_iff fun months hmonths => (haccepted.2.2.2.1 months hmonths).1,
    mem_getD_iff fun days hdays => (haccepted.2.2.2.2.1 days hdays).1]
  exact ⟨fun ⟨hmonth, hday, htime⟩ => ⟨htime, hmonth, hday⟩,
    fun ⟨htime, hmonth, hday⟩ => ⟨hmonth, hday, htime⟩⟩

/-! ## The first time -/

theorem instant_lt_iff (h : t.time = c.time) : c.instant < t.instant ↔ c.ordinal < t.ordinal := by
  unfold CivilTime.instant
  unfold microsecondsPerDay
  omega

/-- A search through just the times of the rule returns the first. -/
theorem isFirst_of_ahead {ahead : CivilTime → CivilTime → Prop}
    (hahead : ∀ t, ahead r.start t ↔ t.time = r.start.time ∧ r.start.ordinal < t.ordinal ∧
      r.Matches t)
    (he : ahead r.start e) (hafter : (after.getD r.start).instant < e.instant)
    (hfirst : ∀ d, ahead r.start d → (after.getD r.start).instant < d.instant →
      e.instant ≤ d.instant) : r.IsFirst after e := by
  obtain ⟨htime, hord, hmatches⟩ := (hahead e).mp he
  refine ⟨⟨htime, hord.le, hmatches⟩, (instant_lt_iff htime).mpr hord, hafter,
    fun t ht hstart htafter => ?_⟩
  exact hfirst t ((hahead t).mpr ⟨ht.time, (instant_lt_iff ht.time).mp hstart, ht.date⟩) htafter

theorem isFirst_daily (haccepted : r.Accepted) (hfrequency : r.frequency = .daily)
    (h : r.nextRecurrenceStart fuel r.start after = .ok e) : r.IsFirst after e := by
  have hinterval := haccepted.interval_eq (by rw [hfrequency]; decide)
  rw [nextRecurrenceStart_of_accepted haccepted] at h
  have hnext (c : CivilTime) : r.nextRuleOccurrence fuel c = searchDays fuel 1
      (fun d => r.byWeekday.getD [] = [] ∨ d.weekday ∈ r.byWeekday.getD []) c := by
    simp only [nextRuleOccurrence, hfrequency, hinterval]
  obtain ⟨he, hafter, hfirst⟩ := searchWindow_days hnext h
  refine isFirst_of_ahead (fun t => ?_) he hafter hfirst
  have hdays : (r.byWeekday.getD [] = [] ∨ t.weekday ∈ r.byWeekday.getD []) ↔ r.Matches t := by
    simp only [Matches, hfrequency, hinterval, Nat.mod_one, true_and]
    cases hweekday : r.byWeekday with
    | none => simp
    | some days =>
        have hlength := (haccepted.2.1 days hweekday).1.1
        have hne : days ≠ [] := by
          rintro rfl
          simp at hlength
        simp [hne]
  rw [DayAhead, hdays]
  constructor
  · rintro ⟨hm, ht, ho⟩
    exact ⟨ht, ho, hm⟩
  · rintro ⟨ht, ho, hm⟩
    exact ⟨hm, ht, ho⟩

theorem isFirst_weekly (haccepted : r.Accepted) (hfrequency : r.frequency = .weekly)
    (h : r.nextRecurrenceStart fuel r.start after = .ok e) : r.IsFirst after e := by
  have hinterval : r.interval = 1 ∨ r.interval = 2 := by
    have := haccepted.1
    omega
  rw [nextRecurrenceStart_of_accepted haccepted] at h
  cases hweekday : r.byWeekday with
  | none =>
      have hnext (c : CivilTime) : r.nextRuleOccurrence fuel c =
          found (c.addDays (7 * r.interval)) .dateOverflow := by
        simp only [nextRuleOccurrence, hfrequency, hweekday]
      obtain ⟨he, hafter, hfirst⟩ := searchWindow_steps (by omega) hnext h
      refine isFirst_of_ahead (fun t => ?_) he hafter hfirst
      simp only [StepAhead, Matches, hfrequency, hweekday, Option.getD_none, List.mem_singleton]
      refine and_congr_right fun _ => and_congr_right fun hord => ?_
      -- Whole weeks apart: the same weekday, and the weeks counted by days.
      have hweeks := CivilTime.weeksSince_mul_seven t r.start
      unfold CivilTime.weekStart CivilTime.weekday at hweeks
      unfold CivilTime.weekday
      generalize t.weeksSince r.start = weeks at hweeks ⊢
      obtain hone | htwo := hinterval
      · rw [hone]
        omega
      · rw [htwo]
        omega
  | some days =>
      obtain ⟨day, rfl⟩ := haccepted.weekdays hweekday hfrequency
      have hnext (c : CivilTime) : r.nextRuleOccurrence fuel c =
          searchDays fuel 1 (r.WeeklyMatch day) c := by
        simp only [nextRuleOccurrence, hfrequency, hweekday, List.head?_cons, found, ok_bind]
      obtain ⟨he, hafter, hfirst⟩ := searchWindow_days hnext h
      refine isFirst_of_ahead (fun t => ?_) he hafter hfirst
      simp only [DayAhead, WeeklyMatch, Matches, hfrequency, hweekday, Option.getD_some,
        List.mem_singleton]
      constructor
      · rintro ⟨⟨hday, -, hphase⟩, htime, hord⟩
        exact ⟨htime, hord, hday, hphase⟩
      · rintro ⟨htime, hord, hday, hphase⟩
        exact ⟨⟨hday, CivilTime.weeksSince_nonneg hord.le, hphase⟩, htime, hord⟩

/-- What is returned is the first time of the rule, unless the rule has one
in the month or the year of its own start that the search passes over. -/
theorem next_start_is_first_iff (r : RecurrenceRule) (after : Option CivilTime)
    (haccepted : r.Accepted) :
    (∀ fuel e, r.nextRecurrenceStart fuel r.start after = .ok e → r.IsFirst after e) ↔
      ¬r.PassedOver after := by
  cases hfrequency : r.frequency with
  | daily =>
      refine iff_of_true (fun fuel e h => isFirst_daily haccepted hfrequency h) ?_
      rintro ⟨t, u, -, -, -, -, ⟨hmonthly, -⟩ | ⟨hyearly, -⟩⟩
      · rw [hfrequency] at hmonthly
        cases hmonthly
      · rw [hfrequency] at hyearly
        cases hyearly
  | weekly =>
      refine iff_of_true (fun fuel e h => isFirst_weekly haccepted hfrequency h) ?_
      rintro ⟨t, u, -, -, -, -, ⟨hmonthly, -⟩ | ⟨hyearly, -⟩⟩
      · rw [hfrequency] at hmonthly
        cases hmonthly
      · rw [hfrequency] at hyearly
        cases hyearly
  | monthly =>
      have hpassed : r.PassedOver after ↔ ∃ t u, r.Denotes t ∧ r.start.instant < t.instant ∧
          (after.getD r.start).instant < t.instant ∧ r.Denotes u ∧
          t.monthIndex = r.start.monthIndex ∧ r.start.monthIndex < u.monthIndex := by
        simp [PassedOver, hfrequency]
      rw [hpassed]
      cases hselector : r.byNWeekday with
      | none =>
        exact Stepping.first_iff _ (exact_ofMonthDay haccepted hfrequency hselector) haccepted
      | some selectors =>
          obtain ⟨selector, rfl⟩ := haccepted.nWeekday hselector
          exact Stepping.first_iff _ (exact_ofNWeekday haccepted hfrequency hselector) haccepted
  | yearly =>
      have hpassed : r.PassedOver after ↔ ∃ t u, r.Denotes t ∧ r.start.instant < t.instant ∧
          (after.getD r.start).instant < t.instant ∧ r.Denotes u ∧
          t.year = r.start.year ∧ r.start.year < u.year := by
        simp [PassedOver, hfrequency]
      rw [hpassed]
      exact Stepping.first_iff _ (exact_ofYearDay haccepted hfrequency) haccepted

/-- A start on the 31st is followed by the end of March. -/
theorem monthEnd_next_is_first :
    GuildScheduledEvent.monthEnd.Accepted ∧
      GuildScheduledEvent.monthEnd.nextRecurrenceStart 12 GuildScheduledEvent.monthEnd.start none =
        .ok marchEnd ∧
      GuildScheduledEvent.monthEnd.IsFirst none marchEnd := by
  have haccepted : GuildScheduledEvent.monthEnd.Accepted := by
    decide
  have hreturns : GuildScheduledEvent.monthEnd.nextRecurrenceStart 12
      GuildScheduledEvent.monthEnd.start none = .ok marchEnd := by
    decide +kernel
  have hpassed : ¬GuildScheduledEvent.monthEnd.PassedOver none := by
    rintro ⟨t, u, ht, hstart, -, -, ⟨-, hmonth, -⟩ | ⟨hyearly, -⟩⟩
    · have hday : t.day = 31 := ht.date.2
      have hsame : t = GuildScheduledEvent.monthEnd.start := by
        have hindex := monthAt_monthIndex t
        rw [hmonth] at hindex
        obtain ⟨hyear, hmonth⟩ := Prod.mk.inj hindex
        have hself := ofDate?_self ht.time
        rw [← hyear, ← hmonth, hday] at hself
        exact (Option.some.inj hself).symm
      rw [hsame] at hstart
      exact lt_irrefl _ hstart
    · cases hyearly
  exact ⟨haccepted, hreturns,
    (next_start_is_first_iff _ none haccepted).mpr hpassed 12 marchEnd hreturns⟩

/-- The second Wednesday of every month, from Monday, 1 January 2024 on. -/
def secondWednesday : RecurrenceRule where
  start := ⟨2024, 1, 1, 43200000000, year_2024_ok, january_ok, by decide, noon_ok⟩
  frequency := .monthly
  interval := 1
  byWeekday := none
  byNWeekday := some [⟨2, 2⟩]
  byMonth := none
  byMonthDay := none

/-- 10 January is passed over, and 14 February is returned. -/
theorem secondWednesday_passed_over :
    secondWednesday.Accepted ∧ ¬∀ fuel e,
      secondWednesday.nextRecurrenceStart fuel secondWednesday.start none = .ok e →
        secondWednesday.IsFirst none e := by
  refine ⟨by decide, fun h => ?_⟩
  let january : CivilTime :=
    ⟨2024, 1, 10, 43200000000, by decide, by decide, by decide, by decide⟩
  let february : CivilTime :=
    ⟨2024, 2, 14, 43200000000, by decide, by decide, by decide, by decide⟩
  have hreturns : secondWednesday.nextRecurrenceStart 12 secondWednesday.start none =
      .ok february := by
    decide +kernel
  have hdenotes : secondWednesday.Denotes january :=
    ⟨rfl, by decide, by decide, ⟨2, 2⟩, List.mem_singleton_self _, by decide, by decide⟩
  have hle := (h 12 february hreturns).first january hdenotes (by decide) (by decide)
  exact absurd hle (by decide)

end RecurrenceRule

end Kaede
