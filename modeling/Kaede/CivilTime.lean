import Mathlib.Data.Nat.Basic
import Mathlib.Data.Option.Basic
import Mathlib.Tactic.IntervalCases

/-!
# Calendar times

Points in time by their calendar fields, in the proleptic Gregorian
calendar and in the years 1 to 9999. A value carries the proof that its
fields name a day; `ofDate?` is the only way to make one from numbers.

Days are counted by `ordinal`, the first of January of the year 1 being
day 1, and the week begins on a Monday. `nextDay` walks the calendar and
moves the count by one (`ordinal_nextDay`), which is all that arithmetic
on weeks needs.
-/

namespace Kaede

def isLeap (year : Nat) : Prop := year % 4 = 0 ∧ (year % 100 ≠ 0 ∨ year % 400 = 0)

instance (year : Nat) : Decidable (isLeap year) := inferInstanceAs (Decidable (_ ∧ _))

def daysInMonth (year : Nat) : Nat → Nat
  | 1 | 3 | 5 | 7 | 8 | 10 | 12 => 31
  | 4 | 6 | 9 | 11 => 30
  | 2 => if isLeap year then 29 else 28
  | _ => 0

/-- The days of the months before this one. -/
def daysBeforeMonth (year : Nat) : Nat → Nat
  | 0 => 0
  | month + 1 => daysBeforeMonth year month + daysInMonth year month

/-- The days of the years before this one. -/
def daysBeforeYear (year : Nat) : Nat :=
  365 * (year - 1) + (year - 1) / 4 - (year - 1) / 100 + (year - 1) / 400

def microsecondsPerDay : Nat := 86400000000

structure CivilTime where
  year : Nat
  month : Nat
  day : Nat
  /-- Microseconds since midnight. -/
  time : Nat
  year_ok : 1 ≤ year ∧ year ≤ 9999
  month_ok : 1 ≤ month ∧ month ≤ 12
  day_ok : 1 ≤ day ∧ day ≤ daysInMonth year month
  time_ok : time < microsecondsPerDay
deriving DecidableEq, Repr

namespace CivilTime

variable {t u : CivilTime}

def ordinal (t : CivilTime) : Nat :=
  daysBeforeYear t.year + daysBeforeMonth t.year t.month + t.day

/-- `0` is a Monday. -/
def weekday (t : CivilTime) : Nat := (t.ordinal + 6) % 7

def instant (t : CivilTime) : Nat := t.ordinal * microsecondsPerDay + t.time

/-- The same time of day on another day, if there is such a day. -/
def ofDate? (t : CivilTime) (year month day : Nat) : Option CivilTime :=
  if h : (1 ≤ year ∧ year ≤ 9999) ∧ (1 ≤ month ∧ month ≤ 12) ∧
      (1 ≤ day ∧ day ≤ daysInMonth year month) then
    some ⟨year, month, day, t.time, h.1, h.2.1, h.2.2, t.time_ok⟩
  else none

def nextDay (t : CivilTime) : Option CivilTime :=
  if t.day < daysInMonth t.year t.month then t.ofDate? t.year t.month (t.day + 1)
  else if t.month < 12 then t.ofDate? t.year (t.month + 1) 1
  else t.ofDate? (t.year + 1) 1 1

def addDays : Nat → CivilTime → Option CivilTime
  | 0, t => some t
  | n + 1, t => t.nextDay.bind (addDays n)

theorem fields_of_ofDate? {year month day : Nat} (h : t.ofDate? year month day = some u) :
    u.year = year ∧ u.month = month ∧ u.day = day ∧ u.time = t.time := by
  unfold ofDate? at h
  split at h
  · obtain rfl := Option.some.inj h
    exact ⟨rfl, rfl, rfl, rfl⟩
  · cases h

theorem daysBeforeMonth_thirteen (year : Nat) :
    daysBeforeMonth year 12 + daysInMonth year 12 = if isLeap year then 366 else 365 := by
  simp only [daysBeforeMonth, daysInMonth]
  split <;> rfl

theorem daysBeforeYear_succ {year : Nat} (h : 1 ≤ year) :
    daysBeforeYear (year + 1) = daysBeforeYear year + if isLeap year then 366 else 365 := by
  obtain ⟨n, rfl⟩ : ∃ n, year = n + 1 := ⟨year - 1, by omega⟩
  have hcentury : n / 100 ≤ n / 4 := Nat.div_le_div_left (by omega) (by omega)
  have h100 : (n + 1) % 100 = 0 → (n + 1) % 4 = 0 := by omega
  have h400 : (n + 1) % 400 = 0 → (n + 1) % 100 = 0 := by omega
  simp only [daysBeforeYear, Nat.add_sub_cancel, isLeap, Nat.succ_div, Nat.dvd_iff_mod_eq_zero]
  generalize n / 4 = a at *
  generalize n / 100 = b at *
  generalize n / 400 = c at *
  by_cases h₄ : (n + 1) % 4 = 0
  · by_cases h₁ : (n + 1) % 100 = 0
    · by_cases h₀ : (n + 1) % 400 = 0 <;> simp [h₄, h₁, h₀] <;> omega
    · have h₀ : (n + 1) % 400 ≠ 0 := fun h => h₁ (h400 h)
      simp [h₄, h₁, h₀]
      omega
  · have h₁ : (n + 1) % 100 ≠ 0 := fun h => h₄ (h100 h)
    have h₀ : (n + 1) % 400 ≠ 0 := fun h => h₁ (h400 h)
    simp [h₄, h₁, h₀]
    omega

theorem ordinal_nextDay (h : t.nextDay = some u) :
    u.ordinal = t.ordinal + 1 ∧ u.time = t.time := by
  have hday := t.day_ok
  have hmonth := t.month_ok
  unfold nextDay at h
  split at h
  · obtain ⟨hy, hm, hd, ht⟩ := fields_of_ofDate? h
    refine ⟨?_, ht⟩
    rw [ordinal, ordinal, hy, hm, hd]
    omega
  · rename_i hlast
    split at h
    · obtain ⟨hy, hm, hd, ht⟩ := fields_of_ofDate? h
      refine ⟨?_, ht⟩
      rw [ordinal, ordinal, hy, hm, hd, daysBeforeMonth]
      omega
    · obtain ⟨hy, hm, hd, ht⟩ := fields_of_ofDate? h
      refine ⟨?_, ht⟩
      have hdecember : t.month = 12 := by omega
      have hyear := daysBeforeMonth_thirteen t.year
      rw [hdecember] at hlast hday
      rw [ordinal, ordinal, hy, hm, hd, hdecember, daysBeforeYear_succ t.year_ok.1, ← hyear]
      show _ + (0 + 0) + 1 = _
      omega

theorem ordinal_addDays {n : Nat} (h : t.addDays n = some u) :
    u.ordinal = t.ordinal + n ∧ u.time = t.time := by
  induction n generalizing t with
  | zero =>
      obtain rfl := Option.some.inj h
      exact ⟨rfl, rfl⟩
  | succ n ih =>
      obtain ⟨d, hd, hu⟩ := Option.bind_eq_some_iff.mp h
      obtain ⟨hord, htime⟩ := ordinal_nextDay hd
      obtain ⟨hord', htime'⟩ := ih hu
      exact ⟨by omega, htime'.trans htime⟩

theorem instant_lt_of_ordinal_lt (h : t.ordinal < u.ordinal) : t.instant < u.instant := by
  have ht := t.time_ok
  unfold instant
  unfold microsecondsPerDay at *
  omega

theorem ordinal_le_of_instant_le (h : t.instant ≤ u.instant) : t.ordinal ≤ u.ordinal := by
  by_contra hlt
  have := instant_lt_of_ordinal_lt (Nat.lt_of_not_le hlt)
  omega

/-! ## Months and years

The count of days follows the order of the calendar, so a day and a time
of day determine the point in time. -/

/-- Months are counted through the years. -/
def monthIndex (t : CivilTime) : Nat := 12 * t.year + (t.month - 1)

theorem daysBeforeMonth_le (year : Nat) {month month' : Nat} (h : month < month') :
    daysBeforeMonth year month + daysInMonth year month ≤ daysBeforeMonth year month' := by
  induction month' with
  | zero => omega
  | succ n ih =>
      rcases Nat.lt_succ_iff_lt_or_eq.mp h with hlt | rfl
      · have := ih hlt
        rw [daysBeforeMonth]
        omega
      · rw [daysBeforeMonth]

theorem ordinal_le_daysBeforeYear (t : CivilTime) : t.ordinal ≤ daysBeforeYear (t.year + 1) := by
  have hday := t.day_ok
  have hmonth := t.month_ok
  have hyear := daysBeforeMonth_thirteen t.year
  have hle : daysBeforeMonth t.year t.month + daysInMonth t.year t.month ≤
      daysBeforeMonth t.year 12 + daysInMonth t.year 12 := by
    rcases Nat.lt_or_ge t.month 12 with hlt | hge
    · have := daysBeforeMonth_le t.year hlt
      omega
    · obtain hdecember : t.month = 12 := by omega
      rw [hdecember]
  rw [daysBeforeYear_succ t.year_ok.1, ← hyear, ordinal]
  omega

theorem daysBeforeYear_mono {year year' : Nat} (h : year ≤ year') (hyear : 1 ≤ year) :
    daysBeforeYear year ≤ daysBeforeYear year' := by
  induction year', h using Nat.le_induction with
  | base => exact Nat.le_refl _
  | succ n hn ih =>
      have := daysBeforeYear_succ (show 1 ≤ n by omega)
      split at this <;> omega

theorem ordinal_lt_of_year_lt (h : t.year < u.year) : t.ordinal < u.ordinal := by
  have hle := ordinal_le_daysBeforeYear t
  have hmono := daysBeforeYear_mono (show t.year + 1 ≤ u.year from h) (by omega)
  have hday := u.day_ok
  have hu : u.ordinal = daysBeforeYear u.year + daysBeforeMonth u.year u.month + u.day := rfl
  omega

theorem ordinal_lt_of_monthIndex_lt (h : t.monthIndex < u.monthIndex) :
    t.ordinal < u.ordinal := by
  have ht := t.month_ok
  have hu := u.month_ok
  unfold monthIndex at h
  rcases Nat.lt_or_ge t.year u.year with hlt | hge
  · exact ordinal_lt_of_year_lt hlt
  · have hyear : t.year = u.year := by omega
    have hmonth := daysBeforeMonth_le t.year (show t.month < u.month by omega)
    have htday := t.day_ok
    have huday := u.day_ok
    rw [ordinal, ordinal, ← hyear]
    omega

theorem eq_of_ordinal_eq (h : t.ordinal = u.ordinal) (htime : t.time = u.time) : t = u := by
  have hindex : t.monthIndex = u.monthIndex := by
    rcases Nat.lt_trichotomy t.monthIndex u.monthIndex with hlt | heq | hgt
    · have := ordinal_lt_of_monthIndex_lt hlt
      omega
    · exact heq
    · have := ordinal_lt_of_monthIndex_lt hgt
      omega
  have ht := t.month_ok
  have hu := u.month_ok
  unfold monthIndex at hindex
  have hyear : t.year = u.year := by omega
  have hmonth : t.month = u.month := by omega
  rw [ordinal, ordinal, hyear, hmonth] at h
  have hday : t.day = u.day := by omega
  cases t
  cases u
  simp only at hyear hmonth hday htime
  subst hyear hmonth hday htime
  rfl

theorem eq_of_instant_eq (h : t.instant = u.instant) : t = u := by
  have ht := t.time_ok
  have hu := u.time_ok
  unfold instant at h
  unfold microsecondsPerDay at *
  exact eq_of_ordinal_eq (by omega) (by omega)

theorem le_daysInMonth (year : Nat) {month : Nat} (h : 1 ≤ month ∧ month ≤ 12) :
    28 ≤ daysInMonth year month := by
  obtain ⟨hlow, hhigh⟩ := h
  interval_cases month <;> simp only [daysInMonth] <;> (try split) <;> omega

theorem ofDate?_eq_some {year month day : Nat} (hyear : 1 ≤ year ∧ year ≤ 9999)
    (hmonth : 1 ≤ month ∧ month ≤ 12) (hday : 1 ≤ day ∧ day ≤ daysInMonth year month) :
    t.ofDate? year month day =
      some ⟨year, month, day, t.time, hyear, hmonth, hday, t.time_ok⟩ := by
  rw [ofDate?, dif_pos ⟨hyear, hmonth, hday⟩]

theorem ofDate?_eq_none_iff {year month day : Nat} : t.ofDate? year month day = none ↔
    ¬((1 ≤ year ∧ year ≤ 9999) ∧ (1 ≤ month ∧ month ≤ 12) ∧
      (1 ≤ day ∧ day ≤ daysInMonth year month)) := by
  unfold ofDate?
  split
  · rename_i h
    exact ⟨(fun hnone => by cases hnone), fun hnot => absurd h hnot⟩
  · rename_i h
    exact ⟨fun _ => h, fun _ => rfl⟩

/-- Only the time of day is taken over. -/
theorem ofDate?_congr (h : t.time = u.time) (year month day : Nat) :
    t.ofDate? year month day = u.ofDate? year month day := by
  unfold ofDate?
  simp only [h]

theorem addDays_add (n m : Nat) (t : CivilTime) :
    t.addDays (n + m) = (t.addDays n).bind (addDays m) := by
  induction n generalizing t with
  | zero =>
      rw [Nat.zero_add]
      rfl
  | succ n ih =>
      rw [Nat.succ_add]
      show t.nextDay.bind (addDays (n + m)) = (t.nextDay.bind (addDays n)).bind (addDays m)
      cases t.nextDay with
      | none => rfl
      | some d => exact ih d

/-! ## Weeks -/

/-- The Monday of the week. -/
def weekStart (t : CivilTime) : Int := t.ordinal - t.weekday

/-- The number of weeks from the week of `anchor` to that of `t`. -/
def weeksSince (t anchor : CivilTime) : Int := (t.weekStart - anchor.weekStart) / 7

theorem weekStart_le (h : t.ordinal ≤ u.ordinal) : t.weekStart ≤ u.weekStart := by
  unfold weekStart weekday
  omega

/-- Weeks begin seven days apart. -/
theorem weeksSince_mul_seven (t anchor : CivilTime) :
    t.weeksSince anchor * 7 = t.weekStart - anchor.weekStart := by
  unfold weeksSince weekStart weekday
  omega

theorem weeksSince_trans (t u anchor : CivilTime) :
    t.weeksSince anchor = t.weeksSince u + u.weeksSince anchor := by
  have h₁ := weeksSince_mul_seven t anchor
  have h₂ := weeksSince_mul_seven t u
  have h₃ := weeksSince_mul_seven u anchor
  omega

theorem weeksSince_nonneg (h : u.ordinal ≤ t.ordinal) : 0 ≤ t.weeksSince u := by
  have hle := weekStart_le h
  have hmul := weeksSince_mul_seven t u
  omega

end CivilTime

end Kaede
