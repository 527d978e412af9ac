import Mathlib.Algebra.Order.Field.Rat
import Mathlib.Data.List.Basic
import Mathlib.Data.Rat.Cast.Order
import Mathlib.Tactic.FieldSimp
import Mathlib.Tactic.Ring

/-!
# The token bucket of a client

`backend/app/core/rate_limits.py`. A key of the store holds how many
thousandths of a token are left and when they were counted. A request adds
what has come in since, takes a token if there is one, and writes the count
back with the time of the request, whether it was let through or not.

The script counts in whole thousandths and in the milliseconds of the
store's own clock, and rounds what comes in down. Its numbers are doubles,
which are exact for the integers and the quotients below `2 ^ 53` that a
limit gives rise to; here they are natural numbers.

Three things are asked of a bucket. That it lets no more through than it
should holds for every run (`admittedWithin_le`), and so does that a client
that waits as told is let through (`admits_after_retry`). That a request
which is refused costs the client nothing does not: the time of the last
count is moved up to now, and the fraction that was rounded away is lost
with it. `covered_iff` says when that is seen.
-/

namespace Kaede

/-- `ClientRateLimit`, with the check of its `__post_init__`. -/
structure ClientRateLimit where
  bucket : String
  limit : Nat
  periodSeconds : Nat
  named : bucket ≠ ""
  limit_pos : 1 ≤ limit
  period_pos : 1 ≤ periodSeconds

/-- What `TIME` answers. -/
structure RedisTime where
  seconds : Nat
  micros : Nat
  micros_lt : micros < 1000000

/-- `now_ms`. -/
def RedisTime.ms (t : RedisTime) : Nat := t.seconds * 1000 + t.micros / 1000

/-- The clock at a millisecond. -/
def RedisTime.at (ms : Nat) : RedisTime :=
  ⟨ms / 1000, ms % 1000 * 1000, by omega⟩

theorem RedisTime.ms_at (ms : Nat) : (RedisTime.at ms).ms = ms := by
  show ms / 1000 * 1000 + ms % 1000 * 1000 / 1000 = ms
  omega

/-- The hash under a key, and when the key expires. -/
structure TokenBucket where
  tokens : Nat
  updatedMs : Nat
  expiresMs : Nat
deriving DecidableEq, Repr

/-- What the script returns. -/
structure BucketReply where
  allowed : Bool
  remaining : Nat
  retryMs : Nat
  resetMs : Nat
deriving DecidableEq, Repr

namespace ClientRateLimit

variable (lim : ClientRateLimit)

def capacity : Nat := lim.limit * 1000

def periodMs : Nat := lim.periodSeconds * 1000

/-- The tokens of a bucket at `nowMs`, with what has come in since the last
count; a key that is not there, or has expired, stands for a full bucket. -/
def level (key : Option TokenBucket) (nowMs : Nat) : Nat :=
  match key.filter fun b => nowMs ≤ b.expiresMs with
  | none => lim.capacity
  | some b =>
      let elapsed := nowMs - b.updatedMs
      let refill := elapsed * lim.capacity / lim.periodMs
      min lim.capacity (b.tokens + refill)

/-- Quotients rounded up, as `math.ceil` does. -/
def ceilDiv (a b : Nat) : Nat := (a + b - 1) / b

/-- `CLIENT_BUCKET_LUA`. -/
def clientBucket (key : Option TokenBucket) (now : RedisTime) : BucketReply × TokenBucket :=
  let level := lim.level key now.ms
  let allowed := decide (1000 ≤ level)
  let tokens := if allowed then level - 1000 else level
  let missing := 1000 - tokens
  (⟨allowed, tokens / 1000, ceilDiv (missing * lim.periodMs) lim.capacity,
      ceilDiv ((lim.capacity - tokens) * lim.periodMs) lim.capacity⟩,
    ⟨tokens, now.ms, now.ms + max 1000 (lim.periodMs * 2)⟩)

end ClientRateLimit

abbrev RateStore := String → Option TokenBucket

/-- The headers of an answer, the times in milliseconds. -/
structure RateHeaders where
  bucket : String
  limit : Nat
  remaining : Nat
  resetAfterMs : Nat
deriving DecidableEq, Repr

inductive RateError where
  | invalidIdentity
  /-- Status 429, `RATE_LIMITED`. -/
  | rateLimited (retryAfterMs : Nat) (headers : RateHeaders)
deriving DecidableEq, Repr

namespace ClientRateLimit

variable (lim : ClientRateLimit) (identity : String)

def key : String := "rate:client:" ++ lim.bucket ++ ":" ++ identity

/-- `enforce_keyed_rate_limit`. -/
def enforce (store : RateStore) (now : RedisTime) :
    Except RateError RateHeaders × RateStore :=
  if identity = "" ∨ 320 < identity.length then (.error .invalidIdentity, store)
  else
    let (reply, bucket) := lim.clientBucket (store (lim.key identity)) now
    let headers : RateHeaders := ⟨lim.bucket, lim.limit, reply.remaining, reply.resetMs⟩
    let store := Function.update store (lim.key identity) (some bucket)
    if reply.allowed then (.ok headers, store)
    else (.error (.rateLimited (max 1 reply.retryMs) headers), store)

def Admits (store : RateStore) (now : RedisTime) : Prop :=
  ∃ headers, (lim.enforce identity store now).1 = .ok headers

def Refuses (store : RateStore) (now : RedisTime) (retryAfterMs : Nat) : Prop :=
  ∃ headers, (lim.enforce identity store now).1 = .error (.rateLimited retryAfterMs headers)

/-- The store after requests at these times. -/
def after (store : RateStore) (times : List RedisTime) : RateStore :=
  times.foldl (fun store now => (lim.enforce identity store now).2) store

/-- The times at which requests are let through. -/
def admitted (store : RateStore) : List RedisTime → List Nat
  | [] => []
  | now :: times =>
      match lim.enforce identity store now with
      | (.ok _, store) => now.ms :: admitted store times
      | (.error _, store) => admitted store times

/-! ## One request -/

section

variable {lim : ClientRateLimit} {identity : String} {store : RateStore} {b : TokenBucket}
  {now later : RedisTime} {nowMs retryAfterMs : Nat}

theorem capacity_ge (lim : ClientRateLimit) : 1000 ≤ lim.capacity := by
  have := lim.limit_pos
  unfold capacity
  omega

theorem periodMs_pos (lim : ClientRateLimit) : 0 < lim.periodMs := by
  have := lim.period_pos
  unfold periodMs
  omega

/-- What the script writes. -/
def written (lim : ClientRateLimit) (tokens : Nat) (now : RedisTime) : TokenBucket :=
  ⟨tokens, now.ms, now.ms + max 1000 (lim.periodMs * 2)⟩

def Stored (lim : ClientRateLimit) (b : TokenBucket) : Prop :=
  b.expiresMs = b.updatedMs + max 1000 (lim.periodMs * 2)

instance (lim : ClientRateLimit) (b : TokenBucket) : Decidable (Stored lim b) :=
  inferInstanceAs (Decidable (_ = _))

theorem stored_written (lim : ClientRateLimit) (tokens : Nat) (now : RedisTime) :
    Stored lim (written lim tokens now) := rfl

/-- The three ways a request ends. -/
theorem enforce_cases (lim : ClientRateLimit) (identity : String) (store : RateStore)
    (now : RedisTime) :
    ((identity = "" ∨ 320 < identity.length) ∧
      lim.enforce identity store now = (.error .invalidIdentity, store)) ∨
    (1000 ≤ lim.level (store (lim.key identity)) now.ms ∧ ∃ headers,
      lim.enforce identity store now = (.ok headers, Function.update store (lim.key identity)
        (some (written lim (lim.level (store (lim.key identity)) now.ms - 1000) now)))) ∨
    (lim.level (store (lim.key identity)) now.ms < 1000 ∧ ∃ headers,
      lim.enforce identity store now =
        (.error (.rateLimited (max 1 (ceilDiv
            ((1000 - lim.level (store (lim.key identity)) now.ms) * lim.periodMs) lim.capacity))
          headers),
        Function.update store (lim.key identity)
          (some (written lim (lim.level (store (lim.key identity)) now.ms) now)))) := by
  by_cases hidentity : identity = "" ∨ 320 < identity.length
  · exact .inl ⟨hidentity, by rw [enforce, if_pos hidentity]⟩
  · by_cases hlevel : 1000 ≤ lim.level (store (lim.key identity)) now.ms
    · refine .inr (.inl ⟨hlevel, ?_⟩)
      simp [enforce, clientBucket, written, hidentity, hlevel]
    · refine .inr (.inr ⟨by omega, ?_⟩)
      simp [enforce, clientBucket, written, hidentity, hlevel]

theorem level_le (key : Option TokenBucket) : lim.level key nowMs ≤ lim.capacity := by
  unfold level
  split
  · exact le_rfl
  · exact Nat.min_le_left _ _

theorem level_none : lim.level none nowMs = lim.capacity := rfl

/-- A key outlives the period in which its bucket fills up. -/
theorem periodMs_le_elapsed (hb : Stored lim b) (hexpired : ¬nowMs ≤ b.expiresMs) :
    lim.periodMs ≤ nowMs - b.updatedMs := by
  rw [Stored] at hb
  have := Nat.le_max_right 1000 (lim.periodMs * 2)
  omega

/-- A bucket has all of a token once the time for it has passed: a bucket
that expires was full long before. -/
theorem le_level_iff (hb : Stored lim b) (nowMs : Nat) {n : Nat} (hn : n ≤ 1000) :
    n ≤ lim.level (some b) nowMs ↔
      n * lim.periodMs ≤ b.tokens * lim.periodMs + (nowMs - b.updatedMs) * lim.capacity := by
  have hcapacity := lim.capacity_ge
  unfold level
  rw [Option.filter_some]
  by_cases hlive : nowMs ≤ b.expiresMs
  · simp only [hlive, decide_true, if_true]
    rw [le_min_iff]
    have hdiv : n ≤ b.tokens + (nowMs - b.updatedMs) * lim.capacity / lim.periodMs ↔
        n * lim.periodMs ≤ b.tokens * lim.periodMs + (nowMs - b.updatedMs) * lim.capacity := by
      rw [add_comm, ← Nat.add_mul_div_right _ _ lim.periodMs_pos,
        Nat.le_div_iff_mul_le lim.periodMs_pos, add_comm]
    exact ⟨fun h => hdiv.mp h.2, fun h => ⟨hn.trans hcapacity, hdiv.mpr h⟩⟩
  · simp only [hlive, decide_false, Bool.false_eq_true, if_false]
    refine ⟨fun _ => ?_, fun _ => hn.trans hcapacity⟩
    have helapsed := periodMs_le_elapsed hb hlive
    calc n * lim.periodMs ≤ lim.capacity * (nowMs - b.updatedMs) :=
          Nat.mul_le_mul (hn.trans hcapacity) helapsed
      _ ≤ _ := by rw [mul_comm]; exact Nat.le_add_left _ _

/-- No bucket holds more than it had and what has come in since. -/
theorem level_mul_le (hb : Stored lim b) (nowMs : Nat) :
    lim.level (some b) nowMs * lim.periodMs ≤
      b.tokens * lim.periodMs + (nowMs - b.updatedMs) * lim.capacity := by
  unfold level
  rw [Option.filter_some]
  by_cases hlive : nowMs ≤ b.expiresMs
  · simp only [hlive, decide_true, if_true]
    calc _ ≤ (b.tokens + (nowMs - b.updatedMs) * lim.capacity / lim.periodMs) * lim.periodMs :=
          Nat.mul_le_mul_right _ (Nat.min_le_right _ _)
      _ ≤ _ := by
        rw [Nat.add_mul]
        exact Nat.add_le_add_left (Nat.div_mul_le_self _ _) _
  · simp only [hlive, decide_false, Bool.false_eq_true, if_false]
    have helapsed := periodMs_le_elapsed hb hlive
    calc lim.capacity * lim.periodMs ≤ lim.capacity * (nowMs - b.updatedMs) :=
          Nat.mul_le_mul_left _ helapsed
      _ ≤ _ := by rw [mul_comm]; exact Nat.le_add_left _ _

theorem admits_iff (hb : Stored lim b) (hkey : store (lim.key identity) = some b)
    (hidentity : ¬(identity = "" ∨ 320 < identity.length)) :
    lim.Admits identity store now ↔
      1000 * lim.periodMs ≤
        b.tokens * lim.periodMs + (now.ms - b.updatedMs) * lim.capacity := by
  rw [← le_level_iff hb _ le_rfl, ← hkey]
  obtain ⟨hinvalid, -⟩ | ⟨hlevel, headers, h⟩ | ⟨hlevel, headers, h⟩ :=
    enforce_cases lim identity store now
  · exact absurd hinvalid hidentity
  · exact ⟨fun _ => hlevel, fun _ => ⟨headers, by rw [h]⟩⟩
  · refine ⟨fun ⟨headers', h'⟩ => ?_, fun hle => absurd hlevel (not_lt.mpr hle)⟩
    rw [h] at h'
    cases h'

/-- A refused request leaves the tokens as it counted them. -/
theorem refuses_cases (h : lim.Refuses identity store now retryAfterMs) :
    ¬(identity = "" ∨ 320 < identity.length) ∧
    lim.level (store (lim.key identity)) now.ms < 1000 ∧
    retryAfterMs = max 1 (ceilDiv
      ((1000 - lim.level (store (lim.key identity)) now.ms) * lim.periodMs) lim.capacity) ∧
    (lim.enforce identity store now).2 (lim.key identity) =
      some (written lim (lim.level (store (lim.key identity)) now.ms) now) := by
  obtain ⟨headers, h⟩ := h
  by_cases hidentity : identity = "" ∨ 320 < identity.length
  · rw [enforce, if_pos hidentity] at h
    cases h
  · obtain ⟨hinvalid, -⟩ | ⟨-, headers', h'⟩ | ⟨hlevel, headers', h'⟩ :=
      enforce_cases lim identity store now
    · exact absurd hinvalid hidentity
    · rw [h'] at h
      cases h
    · rw [h'] at h ⊢
      refine ⟨hidentity, hlevel, ?_, Function.update_self ..⟩
      injection h with h
      injection h with h
      exact h.symm

theorem le_mul_ceilDiv (a : Nat) {c : Nat} (hc : 0 < c) : a ≤ ceilDiv a c * c := by
  have := Nat.div_add_mod (a + c - 1) c
  have := Nat.mod_lt (a + c - 1) hc
  rw [ceilDiv, mul_comm]
  omega

theorem ceilDiv_mul_lt (a : Nat) {c : Nat} (hc : 0 < c) : ceilDiv a c * c < a + c := by
  have := Nat.div_mul_le_self (a + c - 1) c
  rw [ceilDiv]
  omega

/-- A client that waits as long as it is told is let through. -/
theorem admits_after_retry (h : lim.Refuses identity store now retryAfterMs)
    (hlater : now.ms + retryAfterMs ≤ later.ms) :
    lim.Admits identity (lim.enforce identity store now).2 later := by
  obtain ⟨hidentity, hlevel, rfl, hkey⟩ := refuses_cases h
  rw [admits_iff (stored_written ..) hkey hidentity]
  set level := lim.level (store (lim.key identity)) now.ms
  set wait := ceilDiv ((1000 - level) * lim.periodMs) lim.capacity
  have hwait : wait ≤ later.ms - now.ms := by
    have := Nat.le_max_right 1 wait
    omega
  calc 1000 * lim.periodMs = level * lim.periodMs + (1000 - level) * lim.periodMs := by
        rw [← Nat.add_mul]
        congr 1
        omega
    _ ≤ level * lim.periodMs + wait * lim.capacity :=
        Nat.add_le_add_left (le_mul_ceilDiv _ (by have := lim.capacity_ge; omega)) _
    _ ≤ level * lim.periodMs + (later.ms - now.ms) * lim.capacity :=
        Nat.add_le_add_left (Nat.mul_le_mul_right _ hwait) _

/-! ## What a refused request costs -/

/-- What is lost as the refill is rounded down is no more than what the wait
for a token, rounded up to a millisecond, brings in beyond the token. -/
def Covered (lim : ClientRateLimit) (b : TokenBucket) (now : RedisTime) : Prop :=
  let missing := (1000 - b.tokens) * lim.periodMs
  (now.ms - b.updatedMs) * lim.capacity % lim.periodMs ≤
    ceilDiv missing lim.capacity * lim.capacity - missing

/-- The request at `now` does not put off the time at which one is let through. -/
def Unpostponed (lim : ClientRateLimit) (identity : String) (store : RateStore)
    (now : RedisTime) : Prop :=
  ∀ later : RedisTime, now.ms ≤ later.ms → lim.Admits identity store later →
    lim.Admits identity (lim.enforce identity store now).2 later

/-- The level of a bucket that has less than a token is not cut off. -/
theorem level_mul_add_mod (hlevel : lim.level (some b) nowMs < 1000) :
    lim.level (some b) nowMs * lim.periodMs +
        (nowMs - b.updatedMs) * lim.capacity % lim.periodMs =
      b.tokens * lim.periodMs + (nowMs - b.updatedMs) * lim.capacity := by
  have hcapacity := lim.capacity_ge
  unfold level at hlevel ⊢
  rw [Option.filter_some] at hlevel ⊢
  by_cases hlive : nowMs ≤ b.expiresMs
  · simp only [hlive, decide_true, if_true] at hlevel ⊢
    rw [Nat.min_eq_right (by omega), Nat.add_mul, Nat.add_assoc]
    congr 1
    rw [mul_comm (_ / _)]
    exact Nat.div_add_mod _ _
  · simp only [hlive, decide_false, Bool.false_eq_true, if_false] at hlevel
    omega

theorem unpostponed_iff (hb : Stored lim b) (hkey : store (lim.key identity) = some b)
    (hupdated : b.updatedMs ≤ now.ms) (h : lim.Refuses identity store now retryAfterMs) :
    lim.Unpostponed identity store now ↔ lim.Covered b now := by
  obtain ⟨hidentity, hlevel, -, hkey'⟩ := refuses_cases h
  rw [hkey] at hlevel hkey'
  have hmod := level_mul_add_mod hlevel
  have hrefused := (le_level_iff hb now.ms le_rfl).not.mp (not_le.mpr hlevel)
  have hcapacity : 0 < lim.capacity := by
    have := lim.capacity_ge
    omega
  -- Without the request a later one needs `missing`, with it also the remainder that was lost.
  set lost := (now.ms - b.updatedMs) * lim.capacity % lim.periodMs
  set missing := (1000 - b.tokens) * lim.periodMs with hmissing
  have htokens : b.tokens < 1000 := by
    by_contra hge
    exact hrefused ((Nat.mul_le_mul_right _ (not_lt.mp hge)).trans (Nat.le_add_right _ _))
  have htoken : b.tokens * lim.periodMs + missing = 1000 * lim.periodMs := by
    rw [hmissing, ← Nat.add_mul]
    congr 1
    omega
  have hbefore (later : RedisTime) : lim.Admits identity store later ↔
      missing ≤ (later.ms - b.updatedMs) * lim.capacity := by
    rw [admits_iff hb hkey hidentity]
    omega
  have hafter (later : RedisTime) (hlater : now.ms ≤ later.ms) :
      lim.Admits identity (lim.enforce identity store now).2 later ↔
        missing + lost ≤ (later.ms - b.updatedMs) * lim.capacity := by
    have hsplit : (later.ms - b.updatedMs) * lim.capacity =
        (now.ms - b.updatedMs) * lim.capacity + (later.ms - now.ms) * lim.capacity := by
      rw [← Nat.add_mul]
      congr 1
      omega
    rw [admits_iff (stored_written ..) hkey' hidentity, hsplit]
    show 1000 * lim.periodMs ≤ lim.level (some b) now.ms * lim.periodMs +
      (later.ms - now.ms) * lim.capacity ↔ _
    omega
  have hceil := le_mul_ceilDiv missing hcapacity
  constructor
  · intro hunpostponed
    have hfirst : now.ms ≤ b.updatedMs + ceilDiv missing lim.capacity := by
      by_contra hlt
      refine hrefused ?_
      have : ceilDiv missing lim.capacity * lim.capacity ≤
          (now.ms - b.updatedMs) * lim.capacity := Nat.mul_le_mul_right _ (by omega)
      omega
    have hfirst' : now.ms ≤ (RedisTime.at (b.updatedMs + ceilDiv missing lim.capacity)).ms := by
      rwa [RedisTime.ms_at]
    have hadmits := hunpostponed _ hfirst' ((hbefore _).mpr (by
      rwa [RedisTime.ms_at, Nat.add_sub_cancel_left]))
    rw [hafter _ hfirst', RedisTime.ms_at, Nat.add_sub_cancel_left] at hadmits
    show lost ≤ ceilDiv missing lim.capacity * lim.capacity - missing
    omega
  · intro hcovered later hlater hadmits
    rw [hbefore] at hadmits
    rw [hafter _ hlater]
    have hcovered : lost ≤ ceilDiv missing lim.capacity * lim.capacity - missing := hcovered
    have hwait : ceilDiv missing lim.capacity ≤ later.ms - b.updatedMs := by
      by_contra hlt
      have := ceilDiv_mul_lt missing hcapacity
      have : (later.ms - b.updatedMs + 1) * lim.capacity ≤
          ceilDiv missing lim.capacity * lim.capacity := Nat.mul_le_mul_right _ (by omega)
      rw [Nat.add_mul] at this
      omega
    have := Nat.mul_le_mul_right lim.capacity hwait
    omega

/-! ## How many are let through -/

/-- The key as the requests so far left it. -/
def KeyOk (lim : ClientRateLimit) (identity : String) (store : RateStore) (nowMs : Nat) : Prop :=
  ∀ b, store (lim.key identity) = some b → Stored lim b ∧ b.updatedMs ≤ nowMs

theorem KeyOk.mono (h : KeyOk lim identity store nowMs) {laterMs : Nat}
    (hle : nowMs ≤ laterMs) : KeyOk lim identity store laterMs :=
  fun b hb => ⟨(h b hb).1, (h b hb).2.trans hle⟩

theorem KeyOk.enforce (h : KeyOk lim identity store now.ms) :
    KeyOk lim identity (lim.enforce identity store now).2 now.ms := by
  have hwritten (tokens : Nat) : KeyOk lim identity
      (Function.update store (lim.key identity) (some (written lim tokens now))) now.ms := by
    intro b hb
    rw [Function.update_self] at hb
    obtain rfl := Option.some.inj hb
    exact ⟨stored_written .., le_rfl⟩
  obtain ⟨-, h'⟩ | ⟨-, headers, h'⟩ | ⟨-, headers, h'⟩ := enforce_cases lim identity store now
  · rw [h']
    exact h
  · rw [h']
    exact hwritten _
  · rw [h']
    exact hwritten _

variable {times : List RedisTime} {lastMs : Nat}

theorem mem_admitted {t : Nat} (h : t ∈ lim.admitted identity store times) :
    ∃ now ∈ times, now.ms = t := by
  induction times generalizing store with
  | nil => cases h
  | cons now times ih =>
      rw [admitted] at h
      split at h
      · obtain rfl | h := List.mem_cons.mp h
        · exact ⟨now, List.mem_cons_self, rfl⟩
        · obtain ⟨u, hu, rfl⟩ := ih h
          exact ⟨u, List.mem_cons_of_mem _ hu, rfl⟩
      · obtain ⟨u, hu, rfl⟩ := ih h
        exact ⟨u, List.mem_cons_of_mem _ hu, rfl⟩

/-- How many of the requests are let through up to a time. -/
def admittedUpTo (lim : ClientRateLimit) (identity : String) (store : RateStore)
    (times : List RedisTime) (lastMs : Nat) : Nat :=
  ((lim.admitted identity store times).filter fun t => t ≤ lastMs).length

/-- How many of the requests are let through within a span of time. -/
def admittedWithin (lim : ClientRateLimit) (identity : String) (store : RateStore)
    (times : List RedisTime) (startMs spanMs : Nat) : Nat :=
  ((lim.admitted identity store times).filter fun t => startMs ≤ t ∧ t ≤ startMs + spanMs).length

theorem admittedUpTo_eq_zero (h : ∀ t ∈ times, lastMs < t.ms) :
    lim.admittedUpTo identity store times lastMs = 0 := by
  rw [admittedUpTo, List.length_eq_zero_iff, List.filter_eq_nil_iff]
  intro t ht
  obtain ⟨now, hnow, rfl⟩ := mem_admitted ht
  rw [decide_eq_true_iff, not_le]
  exact h now hnow

/-- Every request let through was paid for by the tokens that were there or
by those that came in. -/
theorem admittedUpTo_mul_le (hb : Stored lim b) (hkey : store (lim.key identity) = some b)
    (hsorted : times.Pairwise fun t u => t.ms ≤ u.ms) (hupdated : ∀ t ∈ times, b.updatedMs ≤ t.ms)
    (lastMs : Nat) :
    lim.admittedUpTo identity store times lastMs * (1000 * lim.periodMs) ≤
      b.tokens * lim.periodMs + (lastMs - b.updatedMs) * lim.capacity := by
  induction times generalizing store b with
  | nil => simp [admittedUpTo, admitted]
  | cons now times ih =>
      obtain ⟨hnow, hsorted⟩ := List.pairwise_cons.mp hsorted
      by_cases hlast : now.ms ≤ lastMs
      · have hlevel := level_mul_le hb now.ms
        have hsplit : (lastMs - b.updatedMs) * lim.capacity =
            (now.ms - b.updatedMs) * lim.capacity + (lastMs - now.ms) * lim.capacity := by
          have := hupdated now List.mem_cons_self
          rw [← Nat.add_mul]
          congr 1
          omega
        have hrest (tokens : Nat) := ih (stored_written lim tokens now)
          (Function.update_self (lim.key identity) _ store) hsorted hnow
        rw [admittedUpTo, admitted]
        obtain ⟨-, h⟩ | ⟨hallowed, headers, h⟩ | ⟨-, headers, h⟩ :=
          enforce_cases lim identity store now
        · rw [h]
          exact ih hb hkey hsorted fun t ht => hupdated t (List.mem_cons_of_mem _ ht)
        · rw [h, hkey]
          rw [hkey] at hallowed
          have hrest := hrest (lim.level (some b) now.ms - 1000)
          have hspent := Nat.sub_mul (lim.level (some b) now.ms) 1000 lim.periodMs
          have hpaid := Nat.mul_le_mul_right lim.periodMs hallowed
          simp only [admittedUpTo, written, List.filter_cons, hlast, decide_true, if_true,
            List.length_cons, Nat.add_mul] at hrest ⊢
          omega
        · rw [h, hkey]
          have hrest := hrest (lim.level (some b) now.ms)
          simp only [admittedUpTo, written] at hrest ⊢
          omega
      · rw [admittedUpTo_eq_zero, Nat.zero_mul]
        · exact Nat.zero_le _
        · intro t ht
          obtain rfl | ht := List.mem_cons.mp ht
          · omega
          · have := hnow t ht
            omega

/-- A bucket is never more than full as a span of time begins. -/
theorem admittedWithin_mul_le (hok : ∀ t ∈ times, KeyOk lim identity store t.ms)
    (hsorted : times.Pairwise fun t u => t.ms ≤ u.ms) (startMs spanMs : Nat) :
    lim.admittedWithin identity store times startMs spanMs * (1000 * lim.periodMs) ≤
      lim.capacity * lim.periodMs + spanMs * lim.capacity := by
  induction times generalizing store with
  | nil => simp [admittedWithin, admitted]
  | cons now times ih =>
      obtain ⟨hnow, hsorted⟩ := List.pairwise_cons.mp hsorted
      have hok' : ∀ t ∈ times, KeyOk lim identity (lim.enforce identity store now).2 t.ms :=
        fun t ht => (hok now List.mem_cons_self).enforce.mono (hnow t ht)
      have ih := ih hok' hsorted
      rw [admittedWithin, admitted]
      obtain ⟨-, h⟩ | ⟨hallowed, headers, h⟩ | ⟨-, headers, h⟩ :=
        enforce_cases lim identity store now
      · rw [h] at ih ⊢
        exact ih
      · by_cases hin : startMs ≤ now.ms ∧ now.ms ≤ startMs + spanMs
        · -- From here on every time is within the span as long as it is not past its end.
          have hlevel : lim.level (store (lim.key identity)) now.ms * lim.periodMs ≤
              lim.capacity * lim.periodMs := Nat.mul_le_mul_right _ (level_le _)
          have hrest := admittedUpTo_mul_le
            (stored_written lim (lim.level (store (lim.key identity)) now.ms - 1000) now)
            (Function.update_self (lim.key identity) _ store) hsorted hnow (startMs + spanMs)
          have hspent :=
            Nat.sub_mul (lim.level (store (lim.key identity)) now.ms) 1000 lim.periodMs
          have hpaid := Nat.mul_le_mul_right lim.periodMs hallowed
          have hleft : (startMs + spanMs - now.ms) * lim.capacity ≤ spanMs * lim.capacity :=
            Nat.mul_le_mul_right _ (by omega)
          have hsame : ∀ t ∈ lim.admitted identity (Function.update store (lim.key identity)
                (some (written lim (lim.level (store (lim.key identity)) now.ms - 1000) now)))
              times,
              decide (startMs ≤ t ∧ t ≤ startMs + spanMs) = decide (t ≤ startMs + spanMs) := by
            intro t ht
            obtain ⟨u, hu, rfl⟩ := mem_admitted ht
            have := hnow u hu
            refine decide_eq_decide.mpr ⟨And.right, fun hle => ⟨by omega, hle⟩⟩
          rw [h]
          simp only [admittedUpTo, List.filter_cons, hin, and_self, decide_true, if_true,
            List.length_cons, Nat.add_mul, List.filter_congr hsame] at hrest ⊢
          simp only [written] at hrest ⊢
          omega
        · rw [h] at ih ⊢
          simp only [List.filter_cons, hin, decide_false, Bool.false_eq_true, if_false]
          exact ih
      · rw [h] at ih ⊢
        exact ih

theorem keyOk_empty (nowMs : Nat) : KeyOk lim identity (fun _ => none) nowMs := by
  intro b hb
  cases hb

/-- The bound of the limit over any span of time. -/
theorem admittedWithin_le (lim : ClientRateLimit) (identity : String)
    (hsorted : times.Pairwise fun t u => t.ms ≤ u.ms) (startMs spanMs : Nat) :
    (lim.admittedWithin identity (fun _ => none) times startMs spanMs : ℚ) ≤
      lim.limit + spanMs * lim.limit / lim.periodMs := by
  have h := admittedWithin_mul_le
    (fun t _ => (keyOk_empty t.ms : KeyOk lim identity _ t.ms)) hsorted startMs spanMs
  set n := lim.admittedWithin identity (fun _ => none) times startMs spanMs
  have h' : n * lim.periodMs ≤ lim.limit * lim.periodMs + spanMs * lim.limit := by
    refine Nat.le_of_mul_le_mul_left ?_ (show 0 < 1000 by omega)
    rw [capacity] at h
    calc 1000 * (n * lim.periodMs) = n * (1000 * lim.periodMs) := by ring
      _ ≤ _ := h
      _ = 1000 * (lim.limit * lim.periodMs + spanMs * lim.limit) := by ring
  have hperiod : (0 : ℚ) < lim.periodMs := by exact_mod_cast lim.periodMs_pos
  have hcast : (n : ℚ) * lim.periodMs ≤ lim.limit * lim.periodMs + spanMs * lim.limit := by
    exact_mod_cast h'
  have hquotient : (lim.limit : ℚ) + spanMs * lim.limit / lim.periodMs =
      (lim.limit * lim.periodMs + spanMs * lim.limit) / lim.periodMs := by
    field_simp
  rw [hquotient, le_div_iff₀ hperiod]
  exact hcast

/-! ## Runs -/

/-- What is asked of the bucket of a client over requests at these times. -/
structure Meets (lim : ClientRateLimit) (identity : String) (times : List RedisTime) : Prop where
  bounded : ∀ startMs spanMs : Nat,
    (lim.admittedWithin identity (fun _ => none) times startMs spanMs : ℚ) ≤
      lim.limit + spanMs * lim.limit / lim.periodMs
  honoured : ∀ before now rest retryAfterMs, times = before ++ now :: rest →
    lim.Refuses identity (lim.after identity (fun _ => none) before) now retryAfterMs →
    ∀ later : RedisTime, now.ms + retryAfterMs ≤ later.ms →
      lim.Admits identity (lim.after identity (fun _ => none) (before ++ [now])) later
  unpostponed : ∀ before now rest retryAfterMs, times = before ++ now :: rest →
    lim.Refuses identity (lim.after identity (fun _ => none) before) now retryAfterMs →
    ∀ later : RedisTime, now.ms ≤ later.ms →
      lim.Admits identity (lim.after identity (fun _ => none) before) later →
      lim.Admits identity (lim.after identity (fun _ => none) (before ++ [now])) later

/-- The loss is covered whenever a request finds less than a token. -/
def RefusalsCovered (lim : ClientRateLimit) (identity : String) (times : List RedisTime) : Prop :=
  ∀ before now rest b, times = before ++ now :: rest →
    lim.after identity (fun _ => none) before (lim.key identity) = some b →
    lim.level (some b) now.ms < 1000 → lim.Covered b now

theorem after_concat (times : List RedisTime) (now : RedisTime) :
    lim.after identity store (times ++ [now]) =
      (lim.enforce identity (lim.after identity store times) now).2 := by
  rw [after, after, List.foldl_append]
  rfl

theorem KeyOk.after (hok : ∀ t ∈ times, KeyOk lim identity store t.ms)
    (hsorted : times.Pairwise fun t u => t.ms ≤ u.ms) (hle : ∀ t ∈ times, t.ms ≤ nowMs)
    (hnow : KeyOk lim identity store nowMs) :
    KeyOk lim identity (lim.after identity store times) nowMs := by
  induction times generalizing store with
  | nil => exact hnow
  | cons t times ih =>
      obtain ⟨hfirst, hsorted⟩ := List.pairwise_cons.mp hsorted
      have hstep := (hok t List.mem_cons_self).enforce
      exact ih (fun u hu => hstep.mono (hfirst u hu)) hsorted
        (fun u hu => hle u (List.mem_cons_of_mem _ hu)) (hstep.mono (hle t List.mem_cons_self))

/-- An identity that is not accepted leaves the store alone. -/
theorem after_of_invalid (hidentity : identity = "" ∨ 320 < identity.length) :
    lim.after identity store times = store := by
  induction times with
  | nil => rfl
  | cons now times ih =>
      rw [after, List.foldl_cons, enforce, if_pos hidentity]
      exact ih

/-- A request that finds less than a token is refused. -/
theorem refuses_of_level (store : RateStore) (now : RedisTime)
    (hidentity : ¬(identity = "" ∨ 320 < identity.length))
    (hlevel : lim.level (store (lim.key identity)) now.ms < 1000) :
    ∃ retryAfterMs, lim.Refuses identity store now retryAfterMs := by
  obtain ⟨hinvalid, -⟩ | ⟨hallowed, -⟩ | ⟨-, headers, h⟩ := enforce_cases lim identity store now
  · exact absurd hinvalid hidentity
  · exact absurd hallowed (not_le.mpr hlevel)
  · exact ⟨_, headers, by rw [h]⟩

/-- A bucket does what is asked of it just when no request that finds less
than a token loses more than the rounding of the wait makes up for. -/
theorem token_bucket_meets_iff (lim : ClientRateLimit) (identity : String)
    (times : List RedisTime) (hsorted : times.Pairwise fun t u => t.ms ≤ u.ms) :
    lim.Meets identity times ↔ lim.RefusalsCovered identity times := by
  have hok {before : List RedisTime} {now : RedisTime} {rest : List RedisTime}
      (htimes : times = before ++ now :: rest) :
      KeyOk lim identity (lim.after identity (fun _ => none) before) now.ms := by
    rw [htimes, List.pairwise_append] at hsorted
    exact KeyOk.after (fun t _ => keyOk_empty t.ms) hsorted.1
      (fun t ht => hsorted.2.2 t ht now List.mem_cons_self) (keyOk_empty _)
  constructor
  · intro hmeets before now rest b htimes hkey hlevel
    have hidentity : ¬(identity = "" ∨ 320 < identity.length) := by
      intro hinvalid
      rw [after_of_invalid hinvalid] at hkey
      cases hkey
    obtain ⟨hb, hupdated⟩ := hok htimes b hkey
    obtain ⟨retryAfterMs, hrefuses⟩ := refuses_of_level _ now hidentity (hkey ▸ hlevel)
    refine (unpostponed_iff hb hkey hupdated hrefuses).mp fun later hlater hadmits => ?_
    rw [← after_concat]
    exact hmeets.unpostponed before now rest retryAfterMs htimes hrefuses later hlater hadmits
  · intro hcovered
    refine ⟨admittedWithin_le lim identity hsorted, ?_, ?_⟩
    · intro before now rest retryAfterMs _ hrefuses later hlater
      rw [after_concat]
      exact admits_after_retry hrefuses hlater
    · intro before now rest retryAfterMs htimes hrefuses later hlater hadmits
      obtain ⟨hidentity, hlevel, -, -⟩ := refuses_cases hrefuses
      cases hkey : lim.after identity (fun _ => none) before (lim.key identity) with
      | none =>
          rw [hkey, level_none] at hlevel
          exact absurd lim.capacity_ge (not_le.mpr hlevel)
      | some b =>
          obtain ⟨hb, hupdated⟩ := hok htimes b hkey
          rw [hkey] at hlevel
          rw [after_concat]
          exact (unpostponed_iff hb hkey hupdated hrefuses).mpr
            (hcovered before now rest b htimes hkey hlevel) later hlater hadmits

/-- A limit of so many whole tokens a second loses nothing. -/
theorem refusalsCovered_of_dvd (h : lim.periodSeconds ∣ lim.limit) :
    lim.RefusalsCovered identity times := by
  intro before now rest b _ _ _
  have hdvd : lim.periodMs ∣ (now.ms - b.updatedMs) * lim.capacity :=
    Dvd.dvd.mul_left (Nat.mul_dvd_mul_right h 1000) _
  rw [Covered, Nat.mod_eq_zero_of_dvd hdvd]
  exact Nat.zero_le _

/-- `CLIENT_RATE_LIMITS["message_send"]`. -/
def messageSend : ClientRateLimit := ⟨"message-send", 5, 5, by decide, by decide, by decide⟩

/-- `CLIENT_RATE_LIMITS["typing"]`. -/
def typing : ClientRateLimit := ⟨"typing", 2, 10, by decide, by decide, by decide⟩

theorem message_send_meets :
    [RedisTime.at 0, .at 0, .at 0, .at 0, .at 0, .at 0, .at 7].Pairwise (fun t u => t.ms ≤ u.ms) ∧
      messageSend.Meets "kaede.example:1"
        [.at 0, .at 0, .at 0, .at 0, .at 0, .at 0, .at 7] := by
  have hsorted : [RedisTime.at 0, .at 0, .at 0, .at 0, .at 0, .at 0, .at 7].Pairwise
      (fun t u => t.ms ≤ u.ms) := by
    decide
  exact ⟨hsorted, (token_bucket_meets_iff _ _ _ hsorted).mpr
    (refusalsCovered_of_dvd (by decide))⟩

/-- Two requests empty the bucket and the next token is there after five
seconds; a third request after a millisecond puts it off by another one. -/
theorem refused_typing_postpones :
    ¬typing.Meets "kaede.example:1" [.at 0, .at 0, .at 1] := by
  intro h
  let store := typing.after "kaede.example:1" (fun _ => none) [.at 0, .at 0]
  have hemptied : store (typing.key "kaede.example:1") = some ⟨0, 0, 20000⟩ := by
    decide +kernel
  have hidentity : ¬("kaede.example:1" = "" ∨ 320 < "kaede.example:1".length) := by
    decide
  have hlevel : typing.level (store (typing.key "kaede.example:1")) (RedisTime.at 1).ms < 1000 := by
    rw [hemptied]
    decide
  obtain ⟨retryAfterMs, hrefuses⟩ := refuses_of_level store (.at 1) hidentity hlevel
  have hkey := (refuses_cases hrefuses).2.2.2
  rw [hemptied] at hkey
  have hstored : Stored typing ⟨0, 0, 20000⟩ := by
    decide
  have hlater := h.unpostponed [.at 0, .at 0] (.at 1) [] retryAfterMs rfl hrefuses (.at 5000)
    (by decide) ((admits_iff hstored hemptied hidentity).mpr (by decide))
  rw [after_concat, admits_iff (stored_written ..) hkey hidentity] at hlater
  exact absurd hlater (by decide)

end

end ClientRateLimit

end Kaede
