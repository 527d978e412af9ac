import Kaede.CivilTime
import Kaede.Requests

/-!
# Recurring scheduled events

`backend/app/scheduled_events/recurrence.py` and
`materialize_next_recurrence` of the service beside it. An event that
ends is followed by one at the next time its rule gives, and the rule of
the new event starts there.

The rule's loops have no bound of their own, so each takes fuel: a run
that ends in `outOfFuel` says nothing yet, and a rule such as "every 30
February" never says more. Times are UTC, as every function here makes
them.
-/

namespace Kaede

/-- `RECURRENCE_YEARLY` to `RECURRENCE_DAILY`. -/
inductive RecurrenceFrequency where
  | yearly
  | monthly
  | weekly
  | daily
deriving DecidableEq, Repr

structure ScheduledEventNWeekday where
  n : Nat
  day : Nat
deriving DecidableEq, Repr

/-- `ScheduledEventRecurrenceRule`, less the fields that are always null. -/
structure RecurrenceRule where
  start : CivilTime
  frequency : RecurrenceFrequency
  interval : Nat
  byWeekday : Option (List Nat)
  byNWeekday : Option (List ScheduledEventNWeekday)
  byMonth : Option (List Nat)
  byMonthDay : Option (List Nat)
deriving DecidableEq, Repr

/-- Why a search ends without a time. -/
inductive RecurrenceStop where
  | invalidRule
  | dateOverflow
  | dateInvalid
  | emptySelector
  | searchWindow
  | endOverflow
  | outOfFuel
deriving DecidableEq, Repr

/-- `DAILY_WEEKDAY_SETS`. -/
def dailyWeekdaySets : List (List Nat) :=
  [[0, 1, 2, 3, 4], [1, 2, 3, 4, 5], [6, 0, 1, 2, 3], [4, 5], [5, 6], [6, 0]]

namespace RecurrenceRule

/-- The field checks of the model and its `discord_writable_subset`. -/
def Accepted (r : RecurrenceRule) : Prop :=
  (1 ≤ r.interval ∧ r.interval ≤ 2) ∧
  (∀ days ∈ r.byWeekday,
    (1 ≤ days.length ∧ days.length ≤ 7) ∧ (∀ d ∈ days, d ≤ 6) ∧ days.Nodup) ∧
  (∀ selectors ∈ r.byNWeekday,
    selectors.length = 1 ∧ ∀ s ∈ selectors, (1 ≤ s.n ∧ s.n ≤ 5) ∧ s.day ≤ 6) ∧
  (∀ months ∈ r.byMonth, months.length = 1 ∧ ∀ m ∈ months, 1 ≤ m ∧ m ≤ 12) ∧
  (∀ days ∈ r.byMonthDay, days.length = 1 ∧ ∀ d ∈ days, 1 ≤ d ∧ d ≤ 31) ∧
  ([r.byWeekday.isSome, r.byNWeekday.isSome, r.byMonth.isSome || r.byMonthDay.isSome].count true
    ≤ 1) ∧
  (r.interval = 1 ∨ r.frequency = .weekly ∧ r.interval = 2) ∧
  (∀ days ∈ r.byWeekday,
    r.frequency = .daily ∧ days ∈ dailyWeekdaySets ∨ r.frequency = .weekly ∧ days.length = 1) ∧
  (r.byNWeekday.isSome → r.frequency = .monthly) ∧
  r.byMonth.isSome = r.byMonthDay.isSome ∧
  (r.byMonth.isSome → r.frequency = .yearly)

instance (r : RecurrenceRule) : Decidable r.Accepted := inferInstanceAs (Decidable (_ ∧ _))

def withStart (r : RecurrenceRule) (start : CivilTime) : RecurrenceRule := { r with start := start }

/-- The rule's start is no part of what the checks read. -/
theorem accepted_withStart (r : RecurrenceRule) (start : CivilTime) :
    (r.withStart start).Accepted ↔ r.Accepted := Iff.rfl

/-! ## The next occurrence -/

/-- A loop over days, `step` days at a time. -/
def searchDays (fuel step : Nat) (p : CivilTime → Prop) [DecidablePred p] (candidate : CivilTime) :
    Except RecurrenceStop CivilTime :=
  match fuel with
  | 0 => .error .outOfFuel
  | fuel + 1 => do
      let next ← found (candidate.addDays step) .dateOverflow
      (if p next then .ok next else searchDays fuel step p next)

/-- `_next_month`, and the step of the monthly loop. -/
def nextMonth (year month : Nat) : Nat × Nat :=
  if month = 12 then (year + 1, 1) else (year, month + 1)

/-- A loop over months for a candidate after `current`. -/
def searchMonths (candidateIn : Nat → Nat → Except RecurrenceStop (Option CivilTime))
    (current : CivilTime) (fuel : Nat) (ym : Nat × Nat) : Except RecurrenceStop CivilTime :=
  match fuel with
  | 0 => .error .outOfFuel
  | fuel + 1 => do
      let candidate ← candidateIn ym.1 ym.2
      (match candidate with
      | some c =>
        if current.instant < c.instant then .ok c
        else searchMonths candidateIn current fuel (nextMonth ym.1 ym.2)
      | none => searchMonths candidateIn current fuel (nextMonth ym.1 ym.2))

/-- The `n`-th weekday of a month, if the month has it. -/
def nWeekdayIn (selector : ScheduledEventNWeekday) (current : CivilTime) (year month : Nat) :
    Except RecurrenceStop (Option CivilTime) := do
  let first ← found (current.ofDate? year month 1) .dateInvalid
  let day := 1 + (((selector.day : Int) - first.weekday) % 7).toNat + 7 * (selector.n - 1)
  .ok (first.ofDate? year month day)

/-- A loop over years for a candidate after `current`. -/
def searchYears (current : CivilTime) (month day fuel year : Nat) :
    Except RecurrenceStop CivilTime :=
  match fuel with
  | 0 => .error .outOfFuel
  | fuel + 1 =>
    match current.ofDate? year month day with
    | some c =>
      if current.instant < c.instant then .ok c
      else searchYears current month day fuel (year + 1)
    | none => searchYears current month day fuel (year + 1)

/-- The day belongs to the weekly rule: its weekday, in a week of the rule's
phase from the week of its start on. -/
def WeeklyMatch (r : RecurrenceRule) (target : Nat) (d : CivilTime) : Prop :=
  d.weekday = target ∧ 0 ≤ d.weeksSince r.start ∧ d.weeksSince r.start % r.interval = 0

instance (r : RecurrenceRule) (target : Nat) : DecidablePred (r.WeeklyMatch target) := fun _ =>
  inferInstanceAs (Decidable (_ ∧ _))

/-- The selector's one value, or the start's own. -/
def selected (selector : Option (List Nat)) (own : Nat) : Except RecurrenceStop Nat :=
  match selector with
  | none => .ok own
  | some values => found values.head? .emptySelector

/-- `_next_rule_occurrence`. -/
def nextRuleOccurrence (fuel : Nat) (r : RecurrenceRule) (current : CivilTime) :
    Except RecurrenceStop CivilTime :=
  match r.frequency with
  | .daily =>
    let weekdays := r.byWeekday.getD []
    searchDays fuel r.interval (fun d => weekdays = [] ∨ d.weekday ∈ weekdays) current
  | .weekly =>
    match r.byWeekday with
    | none => found (current.addDays (7 * r.interval)) .dateOverflow
    | some days => do
        let target ← found days.head? .emptySelector
        searchDays fuel 1 (r.WeeklyMatch target) current
  | .monthly =>
    let first := nextMonth current.year current.month
    match r.byNWeekday with
    | some selectors => do
        let selector ← found selectors.head? .emptySelector
        searchMonths (nWeekdayIn selector current) current fuel first
    | none =>
      searchMonths (fun year month => .ok (current.ofDate? year month r.start.day)) current fuel
        first
  | .yearly => do
      let month ← selected r.byMonth r.start.month
      let day ← selected r.byMonthDay r.start.day
      searchYears current month day fuel (current.year + 1)

/-- The loop of `next_recurrence_start`. -/
def searchWindow (fuel : Nat) (r : RecurrenceRule) (watermark : CivilTime) (rounds : Nat)
    (current : CivilTime) : Except RecurrenceStop CivilTime :=
  match rounds with
  | 0 => .error .searchWindow
  | rounds + 1 => do
      let next ← nextRuleOccurrence fuel r current
      (if watermark.instant < next.instant then .ok next
      else searchWindow fuel r watermark rounds next)

/-- `next_recurrence_start`. -/
def nextRecurrenceStart (fuel : Nat) (r : RecurrenceRule) (currentStart : CivilTime)
    (after : Option CivilTime) : Except RecurrenceStop CivilTime := do
  ensure r.Accepted .invalidRule
  searchWindow fuel r (after.getD currentStart) 10000 currentStart

end RecurrenceRule

/-! ## Events that follow one another -/

inductive ScheduledEventStatus where
  | scheduled
  | active
  | completed
  | canceled
deriving DecidableEq, Repr

/-- The columns of `GuildScheduledEvent` that have to do with time; the end
is a count of microseconds, like `CivilTime.instant`. -/
structure GuildScheduledEvent where
  status : ScheduledEventStatus
  recurrenceRule : Option RecurrenceRule
  scheduledStart : CivilTime
  scheduledEnd : Option Int
deriving DecidableEq, Repr

/-- The first instant after the year 9999. -/
def endOfTime : Int := (daysBeforeYear 10000 + 1) * microsecondsPerDay

namespace GuildScheduledEvent

/-- `materialize_next_recurrence`: the next event of the series. Its rule
starts with the new event. -/
def materializeNextRecurrence (fuel : Nat) (event : GuildScheduledEvent)
    (after : Option CivilTime) : Except RecurrenceStop (Option GuildScheduledEvent) :=
  match event.status, event.recurrenceRule with
  | .scheduled, _ => .ok none
  | .active, _ => .ok none
  | _, none => .ok none
  | _, some rule => do
      let next ← rule.nextRecurrenceStart fuel event.scheduledStart after
      let newEnd := event.scheduledEnd.map fun e =>
        (next.instant : Int) + (e - event.scheduledStart.instant)
      ensure (∀ e ∈ newEnd, e < endOfTime) .endOverflow
      .ok (some ⟨.scheduled, some (rule.withStart next), next, newEnd⟩)

/-- How an event of the series ends, and the watermark of the catch-up. -/
structure Ending where
  status : ScheduledEventStatus
  terminal : status = .completed ∨ status = .canceled
  after : Option CivilTime
deriving DecidableEq, Repr

/-- The starts of the events that follow as one after the other ends, until
one cannot be made. -/
def starts (fuel : Nat) :
    GuildScheduledEvent → List Ending → List (Except RecurrenceStop CivilTime)
  | _, [] => []
  | event, ending :: rest =>
    match materializeNextRecurrence fuel { event with status := ending.status } ending.after with
    | .error e => [.error e]
    | .ok none => []
    | .ok (some next) => .ok next.scheduledStart :: starts fuel next rest

def duration (event : GuildScheduledEvent) : Option Int :=
  event.scheduledEnd.map fun e => e - event.scheduledStart.instant

/-- An event of this duration ends before the year 10000. -/
def Fits (duration : Option Int) (start : CivilTime) : Prop :=
  ∀ d ∈ duration, (start.instant : Int) + d < endOfTime

instance (duration : Option Int) (start : CivilTime) : Decidable (Fits duration start) :=
  inferInstanceAs (Decidable (∀ d ∈ duration, _))

/-- The series as one rule gives it: every search is made with that rule,
from the last start and its watermark. -/
def series (fuel : Nat) (rule : RecurrenceRule) (duration : Option Int) :
    CivilTime → List (Option CivilTime) → List (Except RecurrenceStop CivilTime)
  | _, [] => []
  | start, after :: rest =>
    match rule.nextRecurrenceStart fuel start after with
    | .error e => [.error e]
    | .ok next =>
      if Fits duration next then .ok next :: series fuel rule duration next rest
      else [.error .endOverflow]

end GuildScheduledEvent

end Kaede
