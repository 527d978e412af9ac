import Kaede.LinearSearch
import Kaede.RecurrenceSeries

/-!
# How the searches of a rule end

Each loop of `_next_rule_occurrence` tries one day, month or year after the
other and is a `search`. The loops over days end at the last day of the
calendar, where adding a day raises, and so does the loop for the `n`-th
weekday of a month, which makes the first of each month. The loops for a
day of the month and for a day of the year do not: `_replace_date` answers
`None` for a day that does not exist, in the year 10000 as on a 30
February, and they go on for ever (`Stepping.endless`).

`datetime` raises its `ValueError` for every year after 9999, as its
documentation has it, so years are plain numbers here.
-/

namespace Kaede

namespace RecurrenceRule

variable {r : RecurrenceRule} {fuel k : Nat} {c d e t watermark : CivilTime}

/-! ## The loops as searches -/

/-- The month with an index. -/
def monthAt (k : Nat) : Nat × Nat := (k / 12, k % 12 + 1)

theorem nextMonth_monthAt (k : Nat) :
    nextMonth (monthAt k).1 (monthAt k).2 = monthAt (k + 1) := by
  unfold nextMonth monthAt
  split
  · exact Prod.ext (by simp only; omega) (by simp only; omega)
  · exact Prod.ext (by simp only; omega) (by simp only; omega)

theorem nextMonth_eq (c : CivilTime) : nextMonth c.year c.month = monthAt (c.monthIndex + 1) := by
  have hmonth := c.month_ok
  unfold nextMonth monthAt CivilTime.monthIndex
  split
  · exact Prod.ext (by simp only; omega) (by simp only; omega)
  · exact Prod.ext (by simp only; omega) (by simp only; omega)

/-- Only what is later than `c` is accepted. -/
def laterThan (c : CivilTime) (candidate : Option CivilTime) : Option CivilTime :=
  candidate.filter fun d => c.instant < d.instant

theorem laterThan_of_lt (h : c.instant < d.instant) : laterThan c (some d) = some d := by
  rw [laterThan, Option.filter_some, if_pos (decide_eq_true h)]

theorem laterThan_of_not_lt (h : ¬c.instant < d.instant) : laterThan c (some d) = none := by
  rw [laterThan, Option.filter_some, if_neg (by simpa using h)]

theorem searchMonths_eq_search
    (candidateIn : Nat → Nat → Except RecurrenceStop (Option CivilTime)) (c : CivilTime)
    (fuel k : Nat) :
    searchMonths candidateIn c fuel (monthAt k) =
      search (fun k => laterThan c <$> candidateIn (monthAt k).1 (monthAt k).2) .outOfFuel fuel
        k := by
  induction fuel generalizing k with
  | zero => rfl
  | succ fuel ih =>
      rw [searchMonths, nextMonth_monthAt, ih]
      cases hcandidate : candidateIn (monthAt k).1 (monthAt k).2 with
      | error stop => rw [error_bind, search_of_error (by rw [hcandidate]; rfl)]
      | ok candidate =>
          rw [ok_bind]
          cases candidate with
          | none => rw [search_of_none (by rw [hcandidate]; rfl)]
          | some d =>
              by_cases hlater : c.instant < d.instant
              · rw [search_of_some (t := d)]
                · exact if_pos hlater
                · rw [hcandidate]
                  exact congrArg Except.ok (laterThan_of_lt hlater)
              · rw [search_of_none]
                · exact if_neg hlater
                · rw [hcandidate]
                  exact congrArg Except.ok (laterThan_of_not_lt hlater)

theorem searchYears_eq_search (c : CivilTime) (month day fuel year : Nat) :
    searchYears c month day fuel year =
      search (fun year => .ok (laterThan c (c.ofDate? year month day))) .outOfFuel fuel year := by
  induction fuel generalizing year with
  | zero => rfl
  | succ fuel ih =>
      rw [searchYears, ih]
      cases hcandidate : c.ofDate? year month day with
      | none => rw [search_of_none (by rw [hcandidate]; rfl)]
      | some d =>
          by_cases hlater : c.instant < d.instant
          · rw [search_of_some (t := d)]
            · exact if_pos hlater
            · rw [hcandidate, laterThan_of_lt hlater]
          · rw [search_of_none]
            · exact if_neg hlater
            · rw [hcandidate, laterThan_of_not_lt hlater]

theorem searchDays_eq_search {step : Nat} (p : CivilTime → Prop) [DecidablePred p]
    (hd : c.addDays (k * step) = some d) :
    searchDays fuel step p d =
      search (fun k => (fun u => if p u then some u else none) <$>
        found (c.addDays ((k + 1) * step)) .dateOverflow) .outOfFuel fuel k := by
  induction fuel generalizing k d with
  | zero => rfl
  | succ fuel ih =>
      have hnext : c.addDays ((k + 1) * step) = d.addDays step := by
        rw [Nat.succ_mul, CivilTime.addDays_add, hd]
        rfl
      rw [searchDays]
      cases hstep : d.addDays step with
      | none => rw [search_of_error (e := .dateOverflow) (by rw [hnext, hstep]; rfl)]; rfl
      | some u =>
          rw [found, ok_bind]
          by_cases hp : p u
          · rw [if_pos hp, search_of_some]
            rw [hnext, hstep]
            exact congrArg Except.ok (if_pos hp)
          · rw [if_neg hp, search_of_none, ih (hnext.trans hstep)]
            rw [hnext, hstep]
            exact congrArg Except.ok (if_neg hp)

/-! ## Loops over months and years -/

/-- The month and the day a yearly rule names. -/
def ruleMonth (r : RecurrenceRule) : Nat := (r.byMonth.bind List.head?).getD r.start.month

def ruleDay (r : RecurrenceRule) : Nat := (r.byMonthDay.bind List.head?).getD r.start.day

/-- The `n`-th weekday of a month. -/
def nWeekdayDate (selector : ScheduledEventNWeekday) (c : CivilTime) (year month : Nat) :
    Option CivilTime :=
  (c.ofDate? year month 1).bind fun first => first.ofDate? year month
    (1 + (((selector.day : Int) - first.weekday) % 7).toNat + 7 * (selector.n - 1))

/-- A rule whose loop goes from month to month, or from year to year. -/
structure Stepping (r : RecurrenceRule) where
  /-- Months or years are counted. -/
  position : CivilTime → Nat
  /-- The date of the rule in one of them, at the time of day of another. -/
  dates : CivilTime → Nat → Option CivilTime
  /-- The first month or year after the calendar's last, and what a
  candidate from there on is. -/
  bound : Nat
  beyond : Except RecurrenceStop (Option CivilTime)
  beyond_eq : beyond = .ok none ∨ beyond = .error .dateInvalid
  position_dates : ∀ {c t : CivilTime} {k : Nat}, dates c k = some t →
    position t = k ∧ t.time = c.time
  dates_congr : ∀ {c d : CivilTime}, c.time = d.time → dates c = dates d
  ordinal_lt : ∀ {c t : CivilTime}, position c < position t → c.ordinal < t.ordinal
  position_lt : ∀ c, position c < bound
  next_eq : ∀ fuel c, r.nextRuleOccurrence fuel c =
    search (fun k => if k < bound then .ok (laterThan c (dates c k)) else beyond) .outOfFuel fuel
      (position c + 1)

theorem monthIndex_of_ofDate? {day : Nat}
    (h : c.ofDate? (monthAt k).1 (monthAt k).2 day = some t) : t.monthIndex = k := by
  obtain ⟨hyear, hmonth, -, -⟩ := CivilTime.fields_of_ofDate? h
  unfold CivilTime.monthIndex
  rw [hyear, hmonth]
  show 12 * (k / 12) + (k % 12 + 1 - 1) = k
  omega

theorem monthIndex_lt (c : CivilTime) : c.monthIndex < 120000 := by
  have hyear := c.year_ok
  have hmonth := c.month_ok
  unfold CivilTime.monthIndex
  omega

theorem ofDate?_beyond {month day : Nat} {year : Nat} (h : 9999 < year) :
    c.ofDate? year month day = none := by
  rw [CivilTime.ofDate?_eq_none_iff]
  omega

/-- The loop for a day of the month. -/
def Stepping.ofMonthDay (hfrequency : r.frequency = .monthly) (hselector : r.byNWeekday = none) :
    Stepping r where
  position := CivilTime.monthIndex
  dates c k := c.ofDate? (monthAt k).1 (monthAt k).2 r.start.day
  bound := 120000
  beyond := .ok none
  beyond_eq := .inl rfl
  position_dates h := ⟨monthIndex_of_ofDate? h, (CivilTime.fields_of_ofDate? h).2.2.2⟩
  dates_congr h := funext fun k => CivilTime.ofDate?_congr h _ _ _
  ordinal_lt := CivilTime.ordinal_lt_of_monthIndex_lt
  position_lt := monthIndex_lt
  next_eq fuel c := by
    simp only [nextRuleOccurrence, hfrequency, hselector, nextMonth_eq, searchMonths_eq_search]
    refine search_congr (fun k _ => ?_) fuel
    split
    · rfl
    · rename_i hbound
      show Except.ok (laterThan c (c.ofDate? (k / 12) (k % 12 + 1) r.start.day)) = _
      rw [ofDate?_beyond (by omega)]
      rfl

theorem nWeekdayIn_of_le {selector : ScheduledEventNWeekday} {year month : Nat}
    (hyear : 1 ≤ year ∧ year ≤ 9999) (hmonth : 1 ≤ month ∧ month ≤ 12) :
    nWeekdayIn selector c year month = .ok (nWeekdayDate selector c year month) := by
  have hdays := CivilTime.le_daysInMonth year hmonth
  unfold nWeekdayIn nWeekdayDate
  rw [CivilTime.ofDate?_eq_some hyear hmonth ⟨le_rfl, by omega⟩]
  rfl

theorem nextRuleOccurrence_nWeekday {selector : ScheduledEventNWeekday}
    {selectors : List ScheduledEventNWeekday} (hfrequency : r.frequency = .monthly)
    (hselector : r.byNWeekday = some (selector :: selectors)) (fuel : Nat) (c : CivilTime) :
    r.nextRuleOccurrence fuel c =
      search (fun k => if k < 120000 then
          .ok (laterThan c (nWeekdayDate selector c (monthAt k).1 (monthAt k).2))
        else .error .dateInvalid) .outOfFuel fuel (c.monthIndex + 1) := by
  simp only [nextRuleOccurrence, hfrequency, hselector, List.head?_cons, found, ok_bind,
    nextMonth_eq, searchMonths_eq_search]
  refine search_congr (fun k hk => ?_) fuel
  have hyear := c.year_ok
  have hindex : 12 ≤ c.monthIndex := by
    unfold CivilTime.monthIndex
    omega
  split
  · rename_i hbound
    rw [nWeekdayIn_of_le]
    · rfl
    · show 1 ≤ k / 12 ∧ k / 12 ≤ 9999
      omega
    · show 1 ≤ k % 12 + 1 ∧ k % 12 + 1 ≤ 12
      omega
  · rename_i hbound
    have hlast : 9999 < (monthAt k).1 := by
      show 9999 < k / 12
      omega
    rw [nWeekdayIn, ofDate?_beyond hlast]
    rfl

/-- The loop for the `n`-th weekday of a month. -/
def Stepping.ofNWeekday {selector : ScheduledEventNWeekday}
    {selectors : List ScheduledEventNWeekday} (hfrequency : r.frequency = .monthly)
    (hselector : r.byNWeekday = some (selector :: selectors)) :
    Stepping r where
  position := CivilTime.monthIndex
  dates c k := nWeekdayDate selector c (monthAt k).1 (monthAt k).2
  bound := 120000
  beyond := .error .dateInvalid
  beyond_eq := .inr rfl
  position_dates h := by
    obtain ⟨first, hfirst, h⟩ := Option.bind_eq_some_iff.mp h
    exact ⟨monthIndex_of_ofDate? h, (CivilTime.fields_of_ofDate? h).2.2.2.trans
      (CivilTime.fields_of_ofDate? hfirst).2.2.2⟩
  dates_congr h := funext fun k => by
    unfold nWeekdayDate
    rw [CivilTime.ofDate?_congr h]
  ordinal_lt := CivilTime.ordinal_lt_of_monthIndex_lt
  position_lt := monthIndex_lt
  next_eq := nextRuleOccurrence_nWeekday hfrequency hselector

/-- The loop for a day of the year. -/
def Stepping.ofYearDay (hfrequency : r.frequency = .yearly)
    (hmonth : selected r.byMonth r.start.month = .ok r.ruleMonth)
    (hday : selected r.byMonthDay r.start.day = .ok r.ruleDay) : Stepping r where
  position := CivilTime.year
  dates c year := c.ofDate? year r.ruleMonth r.ruleDay
  bound := 10000
  beyond := .ok none
  beyond_eq := .inl rfl
  position_dates h := ⟨(CivilTime.fields_of_ofDate? h).1, (CivilTime.fields_of_ofDate? h).2.2.2⟩
  dates_congr h := funext fun year => CivilTime.ofDate?_congr h _ _ _
  ordinal_lt := CivilTime.ordinal_lt_of_year_lt
  position_lt c := by
    have hyear := c.year_ok
    omega
  next_eq fuel c := by
    simp only [nextRuleOccurrence, hfrequency, hmonth, hday, ok_bind, searchYears_eq_search]
    refine search_congr (fun year _ => ?_) fuel
    split
    · rfl
    · rename_i hbound
      rw [ofDate?_beyond (by omega)]
      rfl

theorem selected_eq {selector : Option (List Nat)} {own : Nat}
    (h : ∀ values ∈ selector, values.length = 1) :
    selected selector own = .ok ((selector.bind List.head?).getD own) := by
  cases selector with
  | none => rfl
  | some values =>
      cases values with
      | nil => exact absurd (h [] rfl) (by decide)
      | cons v values => rfl

theorem Accepted.selected_month (h : r.Accepted) :
    selected r.byMonth r.start.month = .ok r.ruleMonth :=
  selected_eq fun months hmonths => (h.2.2.2.1 months hmonths).1

theorem Accepted.selected_day (h : r.Accepted) :
    selected r.byMonthDay r.start.day = .ok r.ruleDay :=
  selected_eq fun days hdays => (h.2.2.2.2.1 days hdays).1

namespace Stepping

variable (s : Stepping r) {ts : List CivilTime}

/-- The dates of the rule in the months or years after that of `c`. -/
def later (c : CivilTime) : List CivilTime :=
  hits (s.dates c) (s.position c + 1) (s.bound - (s.position c + 1))

theorem instant_lt (h : s.dates c k = some t) (hk : s.position c < k) : c.instant < t.instant := by
  refine CivilTime.instant_lt_of_ordinal_lt (s.ordinal_lt ?_)
  rwa [(s.position_dates h).1]

theorem laterThan_dates (hk : s.position c < k) : laterThan c (s.dates c k) = s.dates c k := by
  cases hdate : s.dates c k with
  | none => rfl
  | some t => exact laterThan_of_lt (s.instant_lt hdate hk)

theorem mem_later : t ∈ s.later c ↔ ∃ k, s.position c < k ∧ s.dates c k = some t := by
  have hbound := s.position_lt c
  rw [later, mem_hits]
  constructor
  · rintro ⟨k, hk, -, ht⟩
    exact ⟨k, hk, ht⟩
  · rintro ⟨k, hk, ht⟩
    have := s.position_lt t
    rw [(s.position_dates ht).1] at this
    exact ⟨k, hk, by omega, ht⟩

/-- The search from the first date goes on with the others. -/
theorem later_of_first (hk : s.position c < k) (ht : s.dates c k = some t)
    (hnone : ∀ i, s.position c < i → i < k → s.dates c i = none) :
    s.later c = t :: s.later t := by
  obtain ⟨hposition, htime⟩ := s.position_dates ht
  have hbound := s.position_lt t
  have hbound' := s.position_lt c
  rw [later, later, hits_of_first hk (by omega) ht hnone, s.dates_congr htime, hposition]
  congr 2
  omega

theorem later_eq_cons (h : s.later c = t :: ts) :
    ts = s.later t ∧ ∃ n, ∀ fuel, n ≤ fuel → r.nextRuleOccurrence fuel c = .ok t := by
  have hbound := s.position_lt c
  obtain ⟨k, hk, hk', ht, hnone, -⟩ := hits_eq_cons h
  have hfirst := s.later_of_first hk ht fun i hi hi' => hnone i hi hi'
  refine ⟨(List.cons.inj (h.symm.trans hfirst)).2, k - (s.position c + 1) + 1, fun fuel hfuel => ?_⟩
  rw [s.next_eq]
  refine search_hit hk (fun i hi hi' => ?_) ?_ hfuel
  · rw [if_pos (by omega), hnone i hi hi']
    rfl
  · rw [if_pos (by omega), s.laterThan_dates hk, ht]

theorem later_of_next (h : r.nextRuleOccurrence fuel c = .ok t) : s.later c = t :: s.later t := by
  rw [s.next_eq] at h
  obtain ⟨k, hk, hcandidate, hfirst⟩ := search_eq_ok h
  have hbound : k < s.bound := by
    by_contra hge
    rw [if_neg hge] at hcandidate
    rcases s.beyond_eq with hbeyond | hbeyond <;> rw [hbeyond] at hcandidate <;> cases hcandidate
  rw [if_pos hbound, s.laterThan_dates hk] at hcandidate
  refine s.later_of_first hk (Except.ok.inj hcandidate) fun i hi hi' => ?_
  have hnone := hfirst i hi hi'
  rw [if_pos (by omega), s.laterThan_dates hi] at hnone
  exact Except.ok.inj hnone

/-- Without a date to come the loop never ends, unless making a month
beyond the calendar raises. -/
theorem endless (hbeyond : s.beyond = .ok none) (h : s.later c = []) (fuel : Nat) :
    r.nextRuleOccurrence fuel c = .error .outOfFuel := by
  have hposition := s.position_lt c
  rw [s.next_eq]
  refine search_stuck (fun k hk => ?_) fuel
  split
  · rename_i hbound
    rw [s.laterThan_dates hk, hits_eq_nil h hk (by omega)]
  · exact hbeyond

end Stepping

/-! ## Searches that end -/

/-- With enough fuel always the same outcome, and not for want of fuel. -/
def Converges (f : Nat → Except RecurrenceStop CivilTime) : Prop :=
  ∃ x, x ≠ .error .outOfFuel ∧ ∃ n, ∀ fuel, n ≤ fuel → f fuel = x

theorem converges_congr {f g : Nat → Except RecurrenceStop CivilTime} {n : Nat}
    (h : ∀ fuel, n ≤ fuel → f fuel = g fuel) : Converges f ↔ Converges g := by
  constructor
  · rintro ⟨x, hx, m, hm⟩
    refine ⟨x, hx, max n m, fun fuel hfuel => ?_⟩
    rw [← h fuel (le_of_max_le_left hfuel), hm fuel (le_of_max_le_right hfuel)]
  · rintro ⟨x, hx, m, hm⟩
    refine ⟨x, hx, max n m, fun fuel hfuel => ?_⟩
    rw [h fuel (le_of_max_le_left hfuel), hm fuel (le_of_max_le_right hfuel)]

theorem converges_searchDays {step : Nat} (hstep : 1 ≤ step) (p : CivilTime → Prop)
    [DecidablePred p] (c : CivilTime) : Converges fun fuel => searchDays fuel step p c := by
  have hzero : c.addDays (0 * step) = some c := by
    rw [Nat.zero_mul]
    rfl
  simp only [searchDays_eq_search p hzero]
  refine search_converges (fun k stop hstop hfuel => ?_) ⟨endOfTime.toNat, Nat.zero_le _, ?_⟩
  · subst hfuel
    cases hday : c.addDays ((k + 1) * step) with
    | none =>
        rw [hday] at hstop
        cases hstop
    | some u =>
        rw [hday] at hstop
        cases hstop
  · -- No day is that far on.
    cases hday : c.addDays ((endOfTime.toNat + 1) * step) with
    | none => exact fun h => by cases h
    | some u =>
        exfalso
        have hord := (CivilTime.ordinal_addDays hday).1
        have hle := CivilTime.ordinal_le_daysBeforeYear u
        have hmono := CivilTime.daysBeforeYear_mono (show u.year + 1 ≤ 10000 by
          have := u.year_ok
          omega) (by omega)
        have hmul := Nat.mul_le_mul_left (endOfTime.toNat + 1) hstep
        have hend : daysBeforeYear 10000 ≤ endOfTime.toNat := by decide
        omega

theorem converges_of_eq {x : Except RecurrenceStop CivilTime} (hx : x ≠ .error .outOfFuel)
    {f : Nat → Except RecurrenceStop CivilTime} (h : ∀ fuel, f fuel = x) : Converges f :=
  ⟨x, hx, 0, fun fuel _ => h fuel⟩

theorem Stepping.converges (s : Stepping r) (hbeyond : s.beyond = .error .dateInvalid)
    (c : CivilTime) : Converges fun fuel => r.nextRuleOccurrence fuel c := by
  simp only [s.next_eq]
  refine search_converges (fun k stop hstop hfuel => ?_) ⟨s.bound, s.position_lt c, ?_⟩
  · subst hfuel
    split at hstop
    · cases hstop
    · rw [hbeyond] at hstop
      cases hstop
  · rw [if_neg (lt_irrefl _), hbeyond]
    exact fun h => by cases h

/-- The loop of the rule does not see the end of the calendar. -/
def ReplacesDates (r : RecurrenceRule) : Prop :=
  r.frequency = .yearly ∨ r.frequency = .monthly ∧ r.byNWeekday = none

instance (r : RecurrenceRule) : Decidable r.ReplacesDates := inferInstanceAs (Decidable (_ ∨ _))

theorem Accepted.nWeekday (h : r.Accepted) {selectors : List ScheduledEventNWeekday}
    (hselectors : r.byNWeekday = some selectors) : ∃ selector, selectors = [selector] :=
  List.length_eq_one_iff.mp (h.2.2.1 selectors hselectors).1

theorem Accepted.weekdays (h : r.Accepted) {days : List Nat} (hdays : r.byWeekday = some days)
    (hweekly : r.frequency = .weekly) : ∃ day, days = [day] := by
  rcases h.2.2.2.2.2.2.2.1 days hdays with ⟨hdaily, -⟩ | ⟨-, hlength⟩
  · rw [hweekly] at hdaily
    cases hdaily
  · exact List.length_eq_one_iff.mp hlength

/-- Every other loop ends, wherever it starts. -/
theorem converges_next (haccepted : r.Accepted) (hbounded : ¬r.ReplacesDates) (c : CivilTime) :
    Converges fun fuel => r.nextRuleOccurrence fuel c := by
  have hinterval : 1 ≤ r.interval := haccepted.1.1
  cases hfrequency : r.frequency with
  | daily =>
      simp only [nextRuleOccurrence, hfrequency]
      exact converges_searchDays hinterval _ c
  | weekly =>
      simp only [nextRuleOccurrence, hfrequency]
      cases hdays : r.byWeekday with
      | none =>
          refine converges_of_eq ?_ fun _ => rfl
          cases c.addDays (7 * r.interval) with
          | none => exact fun h => by cases h
          | some d => exact fun h => by cases h
      | some days =>
          obtain ⟨day, rfl⟩ := haccepted.weekdays hdays hfrequency
          exact converges_searchDays le_rfl _ c
  | monthly =>
      cases hselectors : r.byNWeekday with
      | none => exact absurd (.inr ⟨hfrequency, hselectors⟩) hbounded
      | some selectors =>
          obtain ⟨selector, rfl⟩ := haccepted.nWeekday hselectors
          exact (Stepping.ofNWeekday hfrequency hselectors).converges rfl c
  | yearly => exact absurd (.inl hfrequency) hbounded

theorem searchWindow_of_next {x : Except RecurrenceStop CivilTime} {rounds : Nat}
    (h : r.nextRuleOccurrence fuel c = x) :
    r.searchWindow fuel watermark (rounds + 1) c = x >>= fun next =>
      if watermark.instant < next.instant then .ok next
      else r.searchWindow fuel watermark rounds next := by
  rw [searchWindow, h]

theorem converges_searchWindow
    (h : ∀ c, Converges fun fuel => r.nextRuleOccurrence fuel c) (watermark : CivilTime)
    (rounds : Nat) (c : CivilTime) :
    Converges fun fuel => r.searchWindow fuel watermark rounds c := by
  induction rounds generalizing c with
  | zero => exact converges_of_eq (fun h => by cases h) fun _ => rfl
  | succ rounds ih =>
      obtain ⟨x, hx, n, hn⟩ := h c
      cases x with
      | error stop =>
          refine ⟨.error stop, hx, n, fun fuel hfuel => ?_⟩
          exact searchWindow_of_next (hn fuel hfuel)
      | ok next =>
          by_cases hlater : watermark.instant < next.instant
          · refine ⟨.ok next, (fun h => by cases h), n, fun fuel hfuel => ?_⟩
            show r.searchWindow fuel watermark (rounds + 1) c = _
            rw [searchWindow_of_next (hn fuel hfuel), ok_bind, if_pos hlater]
          · refine (converges_congr (n := n) fun fuel hfuel => ?_).mpr (ih next)
            show r.searchWindow fuel watermark (rounds + 1) c = _
            rw [searchWindow_of_next (hn fuel hfuel), ok_bind, if_neg hlater]

/-- Without a bound of its own the loop finds a date or goes on for ever. -/
theorem Stepping.next_eq_error (s : Stepping r) (hbeyond : s.beyond = .ok none)
    {stop : RecurrenceStop} (h : r.nextRuleOccurrence fuel c = .error stop) :
    stop = .outOfFuel := by
  rw [s.next_eq] at h
  obtain hstop | ⟨k, hk⟩ := search_eq_error h
  · exact hstop
  · split at hk
    · cases hk
    · rw [hbeyond] at hk
      cases hk

/-- A search that goes from date to date ends if it meets one after the
watermark, or runs out of rounds first. -/
def Reached (dates : List CivilTime) (watermark : CivilTime) (rounds : Nat) : Prop :=
  (∃ t ∈ dates, watermark.instant < t.instant) ∨ rounds ≤ dates.length

theorem Stepping.converges_searchWindow (s : Stepping r) {rounds : Nat}
    (h : Reached ((s.later c).take rounds) watermark rounds) :
    Converges fun fuel => r.searchWindow fuel watermark rounds c := by
  induction rounds generalizing c with
  | zero => exact converges_of_eq (fun h => by cases h) fun _ => rfl
  | succ rounds ih =>
      cases hlater : s.later c with
      | nil =>
          rw [hlater] at h
          obtain ⟨t, ht, -⟩ | hlength := h
          · cases ht
          · cases hlength
      | cons next ts =>
          obtain ⟨rfl, n, hn⟩ := s.later_eq_cons hlater
          by_cases hnext : watermark.instant < next.instant
          · refine ⟨.ok next, (fun h => by cases h), n, fun fuel hfuel => ?_⟩
            show r.searchWindow fuel watermark (rounds + 1) c = _
            rw [searchWindow_of_next (hn fuel hfuel), ok_bind, if_pos hnext]
          · refine (converges_congr (n := n) fun fuel hfuel => ?_).mpr (ih (c := next) ?_)
            · show r.searchWindow fuel watermark (rounds + 1) c = _
              rw [searchWindow_of_next (hn fuel hfuel), ok_bind, if_neg hnext]
            · rw [hlater, List.take_succ_cons] at h
              obtain ⟨t, ht, hafter⟩ | hlength := h
              · obtain rfl | ht := List.mem_cons.mp ht
                · exact absurd hafter hnext
                · exact .inl ⟨t, ht, hafter⟩
              · exact .inr (Nat.le_of_succ_le_succ hlength)

theorem Stepping.diverges_searchWindow (s : Stepping r) (hbeyond : s.beyond = .ok none)
    {rounds : Nat} (h : ¬Reached ((s.later c).take rounds) watermark rounds) (fuel : Nat) :
    r.searchWindow fuel watermark rounds c = .error .outOfFuel := by
  induction rounds generalizing c with
  | zero => exact absurd (.inr (Nat.zero_le _)) h
  | succ rounds ih =>
      cases hnext : r.nextRuleOccurrence fuel c with
      | error stop =>
          obtain rfl := s.next_eq_error hbeyond hnext
          exact searchWindow_of_next hnext
      | ok next =>
          rw [s.later_of_next hnext, List.take_succ_cons] at h
          have hbefore : ¬watermark.instant < next.instant :=
            fun hafter => h (.inl ⟨next, List.mem_cons_self, hafter⟩)
          rw [searchWindow_of_next hnext, ok_bind, if_neg hbefore]
          refine ih (c := next) ?_
          rintro (⟨t, ht, hafter⟩ | hlength)
          · exact h (.inl ⟨t, List.mem_cons_of_mem _ ht, hafter⟩)
          · exact h (.inr (Nat.succ_le_succ hlength))

theorem reached_take {dates : List CivilTime} {rounds : Nat} :
    Reached (dates.take rounds) watermark rounds ↔ Reached dates watermark rounds := by
  rw [Reached, Reached, List.length_take, le_min_iff, and_iff_right le_rfl]
  by_cases hlength : rounds ≤ dates.length
  · exact iff_of_true (.inr hlength) (.inr hlength)
  · rw [List.take_of_length_le (by omega)]

/-- The dates a yearly rule names after the year of `c`, or a monthly one
after its month. -/
def datesAfter (r : RecurrenceRule) (c : CivilTime) : List CivilTime :=
  match r.frequency with
  | .yearly =>
      hits (fun year => c.ofDate? year r.ruleMonth r.ruleDay) (c.year + 1) (10000 - (c.year + 1))
  | .monthly =>
      hits (fun k => c.ofDate? (monthAt k).1 (monthAt k).2 r.start.day) (c.monthIndex + 1)
        (120000 - (c.monthIndex + 1))
  | _ => []

/-- The search returns or raises. -/
def Ends (r : RecurrenceRule) (currentStart : CivilTime) (after : Option CivilTime) : Prop :=
  ∃ fuel, r.nextRecurrenceStart fuel currentStart after ≠ .error .outOfFuel

theorem nextRecurrenceStart_of_accepted (haccepted : r.Accepted) (after : Option CivilTime) :
    r.nextRecurrenceStart fuel c after = r.searchWindow fuel (after.getD c) 10000 c := by
  rw [nextRecurrenceStart, ensure, if_pos haccepted, ok_bind]

theorem Stepping.ends_iff (s : Stepping r) (hbeyond : s.beyond = .ok none)
    (haccepted : r.Accepted) (after : Option CivilTime) :
    r.Ends c after ↔ Reached (s.later c) (after.getD c) 10000 := by
  constructor
  · rintro ⟨fuel, hfuel⟩
    by_contra hreached
    rw [nextRecurrenceStart_of_accepted haccepted] at hfuel
    exact hfuel (s.diverges_searchWindow hbeyond (reached_take.not.mpr hreached) fuel)
  · intro hreached
    obtain ⟨x, hx, n, hn⟩ := s.converges_searchWindow (reached_take.mpr hreached)
    refine ⟨n, fun h => hx ?_⟩
    rw [nextRecurrenceStart_of_accepted haccepted] at h
    exact (hn n le_rfl).symm.trans h

/-- The search of an accepted rule ends just when the rule does not replace
the date, or one of the dates it names is after the watermark, or there are
more of them than the search has rounds. -/
theorem recurrence_search_ends_iff (r : RecurrenceRule) (currentStart : CivilTime)
    (after : Option CivilTime) (haccepted : r.Accepted) :
    r.Ends currentStart after ↔
      ¬r.ReplacesDates ∨
      (∃ t ∈ r.datesAfter currentStart, (after.getD currentStart).instant < t.instant) ∨
      10000 ≤ (r.datesAfter currentStart).length := by
  by_cases hreplaces : r.ReplacesDates
  · rw [or_iff_right (not_not.mpr hreplaces)]
    obtain hyearly | ⟨hmonthly, hselector⟩ := hreplaces
    · let s := Stepping.ofYearDay hyearly haccepted.selected_month haccepted.selected_day
      have hdates : r.datesAfter currentStart = s.later currentStart := by
        rw [datesAfter, hyearly]
        rfl
      rw [hdates]
      exact s.ends_iff rfl haccepted after
    · let s := Stepping.ofMonthDay hmonthly hselector
      have hdates : r.datesAfter currentStart = s.later currentStart := by
        rw [datesAfter, hmonthly]
        rfl
      rw [hdates]
      exact s.ends_iff rfl haccepted after
  · refine iff_of_true ?_ (.inl hreplaces)
    obtain ⟨x, hx, n, hn⟩ := converges_searchWindow (converges_next haccepted hreplaces)
      (after.getD currentStart) 10000 currentStart
    refine ⟨n, fun h => hx ?_⟩
    rw [nextRecurrenceStart_of_accepted haccepted] at h
    exact (hn n le_rfl).symm.trans h

theorem year_2024_ok : 1 ≤ 2024 ∧ 2024 ≤ 9999 := by decide

theorem january_ok : 1 ≤ 1 ∧ 1 ≤ 12 := by decide

theorem noon_ok : 43200000000 < microsecondsPerDay := by decide

/-- 31 March 2024 at noon. -/
def marchEnd : CivilTime := ⟨2024, 3, 31, 43200000000, year_2024_ok, by decide, by decide, noon_ok⟩

theorem monthEnd_search_ends :
    GuildScheduledEvent.monthEnd.Accepted ∧
      GuildScheduledEvent.monthEnd.Ends GuildScheduledEvent.monthEnd.start none := by
  have haccepted : GuildScheduledEvent.monthEnd.Accepted := by
    decide
  have hmember : marchEnd ∈
      GuildScheduledEvent.monthEnd.datesAfter GuildScheduledEvent.monthEnd.start :=
    mem_hits.mpr ⟨24290, by decide, by decide, rfl⟩
  exact ⟨haccepted, (recurrence_search_ends_iff _ _ _ haccepted).mpr
    (.inr (.inl ⟨marchEnd, hmember, by decide⟩))⟩

/-- Every 30 February. -/
def februaryThirtieth : RecurrenceRule where
  start := ⟨2024, 1, 15, 43200000000, year_2024_ok, january_ok, by decide, noon_ok⟩
  frequency := .yearly
  interval := 1
  byWeekday := none
  byNWeekday := none
  byMonth := some [2]
  byMonthDay := some [30]

/-- The rule is accepted, and the search for its next time never ends. -/
theorem februaryThirtieth_never_ends :
    februaryThirtieth.Accepted ∧ ¬februaryThirtieth.Ends februaryThirtieth.start none := by
  have haccepted : februaryThirtieth.Accepted := by
    decide
  let s := Stepping.ofYearDay rfl haccepted.selected_month haccepted.selected_day
  refine ⟨haccepted, ?_⟩
  rw [s.ends_iff rfl haccepted]
  have hnone : s.later februaryThirtieth.start = [] := by
    rw [List.eq_nil_iff_forall_not_mem]
    intro t ht
    obtain ⟨year, -, hdate⟩ := s.mem_later.mp ht
    have hdate : februaryThirtieth.start.ofDate? year 2 30 = some t := hdate
    obtain ⟨hyear, hmonth, hday, -⟩ := CivilTime.fields_of_ofDate? hdate
    have hok := t.day_ok.2
    rw [hmonth, hday, daysInMonth] at hok
    split at hok <;> omega
  rw [hnone]
  rintro (⟨t, ht, -⟩ | hlength)
  · cases ht
  · cases hlength

end RecurrenceRule

end Kaede
