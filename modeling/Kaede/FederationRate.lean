import Mathlib.Algebra.Order.Field.Rat
import Mathlib.Data.Rat.Cast.Order
import Mathlib.Data.Rat.Floor
import Mathlib.Tactic.Linarith
import Mathlib.Tactic.Positivity
import Mathlib.Tactic.Ring

/-!
# The token buckets of federation

`RATE_LIMIT_LUA` of `backend/app/federation/security.py` and the limits that
run it. A hash holds the tokens that are left and the time of the last call.
The time is the clock of the API node that calls, not the store's as in
`Kaede.RateLimit`, so successive calls may go back in time. A step back earns
nothing, but the hash takes over the earlier time, and the next call of a
node that is ahead earns the same interval again.

The most that calls at given times can get is a full bucket and what comes
in between them (`exists_admittedCost_eq`), and `admittedCost_le_iff` says
when that stays within the refill of the interval from the earliest timestamp
to the latest. Timestamps in order always do (`earned_le_of_ordered`).

The script computes with doubles; here its numbers are rationals.
-/

namespace Kaede.FederationRate

/-- The capacity and the refill a caller passes. -/
structure RateBucket where
  capacity : ℚ
  refillPerMs : ℚ
  capacity_pos : 0 < capacity
  refill_pos : 0 < refillPerMs

/-- `enforce_origin_rate_limit` -/
def originBucket : RateBucket := ⟨100, 1 / 10, by norm_num, by norm_num⟩

/-- `enforce_origin_event_rate_limit` -/
def eventBucket : RateBucket := ⟨200, 1 / 5, by norm_num, by norm_num⟩

/-- `enforce_federation_source_rate_limit` -/
def sourceBucket : RateBucket := ⟨60, 6 / 100, by norm_num, by norm_num⟩

/-- `enforce_federation_route_rate_limit` -/
def routeBucket (capacity refillPerMinute : Nat) (hcapacity : 0 < capacity)
    (hrefill : 0 < refillPerMinute) : RateBucket where
  capacity := capacity
  refillPerMs := refillPerMinute / 60000
  capacity_pos := by positivity
  refill_pos := by positivity

/-- The hash under a key, and how long the key is kept. -/
structure RateHash where
  tokens : ℚ
  updated : ℚ
  expireMs : ℤ
  tokens_nonneg : 0 ≤ tokens

/-- What a node passes with a call. -/
structure RateCall where
  now : ℚ
  cost : ℚ
  cost_nonneg : 0 ≤ cost

/-- What the script returns. -/
structure RateReply where
  allowed : Bool
  tokens : ℚ
deriving DecidableEq, Repr

namespace RateBucket

variable (b : RateBucket)

/-- The tokens a call finds. A missing hash stands for a full bucket. -/
def level (key : Option RateHash) (now : ℚ) : ℚ :=
  let tokens := (key.map RateHash.tokens).getD b.capacity
  let updated := (key.map RateHash.updated).getD now
  min b.capacity (tokens + max 0 (now - updated) * b.refillPerMs)

theorem level_nonneg (key : Option RateHash) (now : ℚ) : 0 ≤ b.level key now := by
  have hcapacity := b.capacity_pos
  have hrefill := b.refill_pos
  refine le_min hcapacity.le (add_nonneg ?_ (by positivity))
  cases key with
  | none => exact hcapacity.le
  | some h => exact h.tokens_nonneg

/-- What is written back. -/
def written (tokens now : ℚ) (htokens : 0 ≤ tokens) : RateHash :=
  ⟨tokens, now, ⌈b.capacity / b.refillPerMs⌉, htokens⟩

/-- `RATE_LIMIT_LUA` -/
def rateLimit (key : Option RateHash) (call : RateCall) : RateReply × RateHash :=
  if h : call.cost ≤ b.level key call.now then
    (⟨true, b.level key call.now - call.cost⟩,
      b.written (b.level key call.now - call.cost) call.now (sub_nonneg.mpr h))
  else
    (⟨false, b.level key call.now⟩,
      b.written (b.level key call.now) call.now (b.level_nonneg key call.now))

/-- The cost of the calls that are let through. -/
def admittedCost : Option RateHash → List RateCall → ℚ
  | _, [] => 0
  | key, call :: calls =>
      (if (b.rateLimit key call).1.allowed then call.cost else 0)
        + admittedCost (some (b.rateLimit key call).2) calls

/-- What comes in between calls at these times. -/
def earned : List ℚ → ℚ
  | t :: u :: times => min b.capacity (b.refillPerMs * max 0 (u - t)) + earned (u :: times)
  | _ => 0

end RateBucket

/-- The earliest timestamp. -/
def earliest (times : List ℚ) : ℚ := times.min?.getD 0

/-- The latest timestamp. -/
def latest (times : List ℚ) : ℚ := times.max?.getD 0

namespace RateBucket

variable {b : RateBucket} {key : Option RateHash} {h : RateHash} {call : RateCall}

/-! ## One call -/

theorem level_le_capacity (key : Option RateHash) (now : ℚ) : b.level key now ≤ b.capacity :=
  min_le_left _ _

theorem level_none (now : ℚ) : b.level none now = b.capacity := by
  simp [level]

/-- A call finds no more than was left and what has come in since, of which
a full bucket is the most. -/
theorem level_some_le (h : RateHash) (now : ℚ) :
    b.level (some h) now ≤ h.tokens +
      min b.capacity (b.refillPerMs * max 0 (now - h.updated)) := by
  have htokens := h.tokens_nonneg
  rw [← min_add_add_left, mul_comm]
  exact min_le_min_right _ (le_add_of_nonneg_left htokens)

/-- The two ways a call ends. -/
theorem rateLimit_cases (b : RateBucket) (key : Option RateHash) (call : RateCall) :
    (∃ htokens, b.rateLimit key call = (⟨true, b.level key call.now - call.cost⟩,
      b.written (b.level key call.now - call.cost) call.now htokens)) ∨
    (∃ htokens, b.rateLimit key call = (⟨false, b.level key call.now⟩,
      b.written (b.level key call.now) call.now htokens)) := by
  unfold rateLimit
  split
  · next hcost => exact .inl ⟨sub_nonneg.mpr hcost, rfl⟩
  · exact .inr ⟨b.level_nonneg key call.now, rfl⟩

/-! ## Every run -/

/-- The first call of a run spends from what it finds. -/
theorem admittedCost_cons_le {calls : List RateCall}
    (hrest : ∀ h : RateHash, b.admittedCost (some h) calls ≤
      h.tokens + b.earned (h.updated :: calls.map RateCall.now)) (key : Option RateHash)
    (call : RateCall) :
    b.admittedCost key (call :: calls) ≤
      b.level key call.now + b.earned (call.now :: calls.map RateCall.now) := by
  have hrest := hrest (b.rateLimit key call).2
  rw [admittedCost]
  rcases rateLimit_cases b key call with ⟨htokens, hcall⟩ | ⟨htokens, hcall⟩
  · rw [hcall] at hrest ⊢
    simp only [written, if_true] at hrest ⊢
    linarith
  · rw [hcall] at hrest ⊢
    simp only [written, Bool.false_eq_true, if_false] at hrest ⊢
    linarith

/-- A run admits at most what is left and what comes in. -/
theorem admittedCost_some_le (b : RateBucket) (calls : List RateCall) (h : RateHash) :
    b.admittedCost (some h) calls ≤ h.tokens + b.earned (h.updated :: calls.map RateCall.now) := by
  induction calls generalizing h with
  | nil => simpa [admittedCost, earned] using h.tokens_nonneg
  | cons call calls ih =>
    rw [List.map_cons, earned]
    have hlevel := @level_some_le b h call.now
    have hcons := admittedCost_cons_le ih (some h) call
    linarith

theorem admittedCost_le (b : RateBucket) (key : Option RateHash) (calls : List RateCall) :
    b.admittedCost key calls ≤ b.capacity + b.earned (calls.map RateCall.now) := by
  cases calls with
  | nil => simpa [admittedCost, earned] using b.capacity_pos.le
  | cons call calls =>
    have hlevel := @level_le_capacity b key call.now
    have hcons := admittedCost_cons_le (admittedCost_some_le b calls) key call
    rw [List.map_cons]
    linarith

/-- A call that takes all there is. -/
def drain (b : RateBucket) (key : Option RateHash) (now : ℚ) : RateCall :=
  ⟨now, b.level key now, b.level_nonneg key now⟩

theorem rateLimit_drain (b : RateBucket) (key : Option RateHash) (now : ℚ) :
    b.rateLimit key (b.drain key now) = (⟨true, 0⟩, b.written 0 now le_rfl) := by
  have hcost : (b.drain key now).cost ≤ b.level key (b.drain key now).now := le_rfl
  rw [rateLimit, dif_pos hcost]
  simp only [drain, sub_self]

/-- An empty bucket gives away all that comes in. -/
theorem exists_admittedCost_eq_earned (b : RateBucket) (times : List ℚ) (t : ℚ) :
    ∃ calls : List RateCall, calls.map RateCall.now = times ∧
      b.admittedCost (some (b.written 0 t le_rfl)) calls = b.earned (t :: times) := by
  induction times generalizing t with
  | nil => exact ⟨[], rfl, rfl⟩
  | cons u times ih =>
    obtain ⟨calls, htimes, hcalls⟩ := ih u
    refine ⟨b.drain (some (b.written 0 t le_rfl)) u :: calls, ?_, ?_⟩
    · rw [List.map_cons, htimes]
      rfl
    · rw [admittedCost, rateLimit_drain, if_pos rfl, hcalls, earned]
      simp only [drain, level, written, Option.map_some, Option.getD_some, zero_add]
      rw [mul_comm]

/-- The calls that get the most out of a list of timestamps. -/
theorem exists_admittedCost_eq (b : RateBucket) (t : ℚ) (times : List ℚ) :
    ∃ calls : List RateCall, calls.map RateCall.now = t :: times ∧
      b.admittedCost none calls = b.capacity + b.earned (t :: times) := by
  obtain ⟨calls, htimes, hcalls⟩ := exists_admittedCost_eq_earned b times t
  refine ⟨b.drain none t :: calls, ?_, ?_⟩
  · rw [List.map_cons, htimes]
    rfl
  · rw [admittedCost, rateLimit_drain, if_pos rfl, hcalls]
    show b.level none t + _ = _
    rw [level_none]

/-! ## The bound -/

theorem latest_cons_cons (t u : ℚ) (times : List ℚ) :
    latest (t :: u :: times) = max t (latest (u :: times)) := by
  simp [latest, List.max?_cons]

theorem earliest_cons_cons (t u : ℚ) (times : List ℚ) :
    earliest (t :: u :: times) = min t (earliest (u :: times)) := by
  simp [earliest, List.min?_cons]

/-- Timestamps in order earn no more than the interval they span. -/
theorem earned_le_of_ordered (b : RateBucket) {t : ℚ} {times : List ℚ}
    (hordered : (t :: times).Pairwise (· ≤ ·)) :
    b.earned (t :: times) ≤ b.refillPerMs * (latest (t :: times) - earliest (t :: times)) := by
  have hrefill := b.refill_pos
  suffices h : earliest (t :: times) = t ∧
      b.earned (t :: times) ≤ b.refillPerMs * (latest (t :: times) - t) by
    rw [h.1]
    exact h.2
  induction times generalizing t with
  | nil => simp [earned, latest, earliest]
  | cons u times ih =>
    obtain ⟨hhead, htail⟩ := List.pairwise_cons.mp hordered
    have hle := hhead u List.mem_cons_self
    obtain ⟨hearliest, hearned⟩ := ih htail
    rw [earliest_cons_cons, latest_cons_cons, hearliest, min_eq_left hle, earned,
      max_eq_right (sub_nonneg.mpr hle)]
    refine ⟨rfl, ?_⟩
    calc min b.capacity (b.refillPerMs * (u - t)) + b.earned (u :: times)
        ≤ b.refillPerMs * (u - t) + b.refillPerMs * (latest (u :: times) - u) :=
          add_le_add (min_le_right _ _) hearned
      _ = b.refillPerMs * (latest (u :: times) - t) := by ring
      _ ≤ b.refillPerMs * (max t (latest (u :: times)) - t) := by
          gcongr
          exact le_max_right _ _

/-- The admitted cost of every run with these timestamps stays within the
capacity and the refill of the interval they span, exactly if what comes in
between the calls does. -/
theorem admittedCost_le_iff (b : RateBucket) (times : List ℚ) :
    (∀ (key : Option RateHash) (calls : List RateCall), calls.map RateCall.now = times →
      b.admittedCost key calls ≤
        b.capacity + b.refillPerMs * (latest times - earliest times)) ↔
    b.earned times ≤ b.refillPerMs * (latest times - earliest times) := by
  constructor
  · intro hbound
    cases times with
    | nil => simp [earned, latest, earliest]
    | cons t times =>
      obtain ⟨calls, htimes, hcalls⟩ := exists_admittedCost_eq b t times
      have := hbound none calls htimes
      linarith
  · rintro hearned key calls rfl
    have := admittedCost_le b key calls
    linarith

end RateBucket

/-- Two nodes whose clocks are a second apart send batches of a hundred
events. -/
def skewedCalls : List RateCall :=
  [0, 0, 1000, 1000, 0, 1000, 1000].map fun now => ⟨now, 100, by norm_num⟩

theorem skewed_clocks_exceed_bound :
    eventBucket.admittedCost none skewedCalls = 600 ∧
      ¬ eventBucket.admittedCost none skewedCalls ≤ eventBucket.capacity +
        eventBucket.refillPerMs * (latest (skewedCalls.map RateCall.now) -
          earliest (skewedCalls.map RateCall.now)) := by
  constructor
  · decide +kernel
  · decide +kernel

end Kaede.FederationRate
