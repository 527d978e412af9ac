import Kaede.Shared
import Kaede.SnowflakeId

/-!
# The worker lease of one process

The local half of `WorkerLease` in `backend/app/core/snowflake.py`: the
cached deadline, the sticky `lost` flag and the two halves of
`assert_owned` on either side of its network round trip. What the key
store answers is an input here; `LeaseProtocol` supplies the store.

Monotonic time is counted in microseconds. A synchronous stretch of code
between two awaits reads it once.
-/

namespace Kaede

def leaseTtlSeconds : Nat := 60

structure WorkerLease where
  workerId : Nat
  /-- The random owner token, a number here. -/
  owner : Nat
  /-- `_valid_until`; explicitly constructed leases have no deadline. -/
  validUntil : Option Nat
  /-- `_lease_ttl_seconds`, in microseconds. -/
  leaseTtl : Nat
  lost : Bool
deriving DecidableEq, Repr

/-- What `client.eval(RENEW_SCRIPT, ...)` comes back with. -/
inductive RenewReply where
  | renewed (value : Int)
  | failure
deriving DecidableEq, Repr

inductive LeaseError where
  | leaseLost
  | ownershipUncertain
deriving DecidableEq, Repr

def LeaseError.message : LeaseError → String
  | .leaseLost => "snowflake worker lease was lost"
  | .ownershipUncertain => "snowflake worker lease ownership is uncertain"

namespace WorkerLease

/-- The `valid` property. Reading it past the deadline sets `lost`. -/
def valid (l : WorkerLease) (monotonic : Nat) : Bool × WorkerLease :=
  if l.lost then (false, l)
  else
    match l.validUntil with
    | none => (true, l)
    | some deadline =>
        if deadline ≤ monotonic then (false, { l with lost := true }) else (true, l)

/-- `assert_owned` after the renewal came back: either the lease is lost
or the deadline moves to one TTL after the request was made. -/
def confirm (l : WorkerLease) (requestedAt monotonic : Nat) :
    RenewReply → Except LeaseError Unit × WorkerLease
  | .failure => (.error .ownershipUncertain, { l with lost := true })
  | .renewed value =>
      let validUntil := requestedAt + l.leaseTtl
      if value ≠ 1 ∨ validUntil ≤ monotonic then
        (.error .leaseLost, { l with lost := true })
      else (.ok (), { l with validUntil := some validUntil })

/-- `close` and a failed heartbeat leave the lease unusable for good. -/
def lose (l : WorkerLease) : WorkerLease := { l with lost := true }

theorem valid_true {l l' : WorkerLease} {m : Nat} (h : l.valid m = (true, l')) :
    l' = l ∧ l.lost = false := by
  unfold valid at h
  split at h
  · cases h
  · rename_i hl
    split at h
    · exact ⟨(Prod.mk.inj h).2.symm, by simpa using hl⟩
    · split at h
      · cases h
      · exact ⟨(Prod.mk.inj h).2.symm, by simpa using hl⟩

theorem valid_false {l l' : WorkerLease} {m : Nat} (h : l.valid m = (false, l')) :
    l' = l.lose := by
  unfold valid at h
  split at h
  · rename_i hl
    obtain rfl := (Prod.mk.inj h).2
    cases l
    simp_all [lose]
  · split at h
    · cases h
    · split at h
      · exact (Prod.mk.inj h).2.symm
      · cases h

theorem confirm_error {l l' : WorkerLease} {r m : Nat} {a : RenewReply} {e : LeaseError}
    (h : l.confirm r m a = (.error e, l')) : l' = l.lose := by
  cases a with
  | failure => exact (Prod.mk.inj h).2.symm
  | renewed value =>
      simp only [confirm] at h
      split at h
      · exact (Prod.mk.inj h).2.symm
      · cases h

/-- A confirmed renewal was answered `1`, within one TTL of the request. -/
theorem confirm_ok {l l' : WorkerLease} {r m : Nat} {a : RenewReply}
    (h : l.confirm r m a = (.ok (), l')) :
    a = .renewed 1 ∧ m < r + l.leaseTtl ∧
      l' = { l with validUntil := some (r + l.leaseTtl) } := by
  cases a with
  | failure => cases h
  | renewed value =>
      simp only [confirm] at h
      split at h
      · cases h
      · rename_i hc
        obtain ⟨hv, hm⟩ := not_or.mp hc
        refine ⟨?_, Nat.lt_of_not_le hm, (Prod.mk.inj h).2.symm⟩
        rw [not_not.mp hv]

end WorkerLease

end Kaede
