import Mathlib.Data.Nat.Bitwise

/-!
# The snowflake layout

`backend/app/core/snowflake.py` packs a millisecond timestamp, a worker
id and a per-millisecond sequence into one signed 64-bit identifier:
41 bits of time since the epoch, 10 of worker, 12 of sequence. Inside
the field ranges the packed value is the mixed-radix number of the three
fields (`snowflake_eq`), so identifiers compare as the triples do.
-/

namespace Kaede

/-- `EPOCH_MS`: 2026-01-01T00:00:00Z. -/
def epochMs : Int := 1767225600000

def workerBits : Nat := 10

def sequenceBits : Nat := 12

def maxWorkerId : Nat := (1 <<< workerBits) - 1

def maxSequence : Nat := (1 <<< sequenceBits) - 1

/-- PostgreSQL `BIGINT` is signed, so the high bit stays clear. -/
def maxTimestamp : Int := (1 <<< 41) - 1

/-- The identifier `mint` returns for its three fields. -/
def snowflake (timestamp workerId sequence : Nat) : Nat :=
  (timestamp <<< (workerBits + sequenceBits)) ||| (workerId <<< sequenceBits) ||| sequence

theorem maxWorkerId_eq : maxWorkerId = 1023 := rfl

theorem maxSequence_eq : maxSequence = 4095 := rfl

/-- Inside the field ranges the three shifted fields do not overlap. -/
theorem snowflake_eq {t w s : Nat} (hw : w ≤ maxWorkerId) (hs : s ≤ maxSequence) :
    snowflake t w s = t * 2 ^ 22 + w * 2 ^ 12 + s := by
  rw [maxWorkerId_eq] at hw
  rw [maxSequence_eq] at hs
  have hlow : w <<< 12 ||| s = w * 2 ^ 12 + s := by
    rw [← Nat.shiftLeft_add_eq_or_of_lt (show s < 2 ^ 12 by omega), Nat.shiftLeft_eq]
  have hlt : w * 2 ^ 12 + s < 2 ^ 22 := by omega
  rw [snowflake, workerBits, sequenceBits, Nat.or_assoc, hlow,
    ← Nat.shiftLeft_add_eq_or_of_lt hlt, Nat.shiftLeft_eq]
  omega

theorem snowflake_lt_of_timestamp {t t' w s s' : Nat} (hw : w ≤ maxWorkerId)
    (hs : s ≤ maxSequence) (hs' : s' ≤ maxSequence) (h : t < t') :
    snowflake t w s < snowflake t' w s' := by
  rw [snowflake_eq hw hs, snowflake_eq hw hs']
  rw [maxWorkerId_eq] at hw
  rw [maxSequence_eq] at hs hs'
  omega

theorem snowflake_lt_of_sequence {t w s s' : Nat} (hw : w ≤ maxWorkerId)
    (hs : s ≤ maxSequence) (hs' : s' ≤ maxSequence) (h : s < s') :
    snowflake t w s < snowflake t w s' := by
  rw [snowflake_eq hw hs, snowflake_eq hw hs']
  omega

/-- Two identifiers agree only if all three fields do. -/
theorem snowflake_inj {t t' w w' s s' : Nat} (hw : w ≤ maxWorkerId)
    (hw' : w' ≤ maxWorkerId) (hs : s ≤ maxSequence) (hs' : s' ≤ maxSequence)
    (h : snowflake t w s = snowflake t' w' s') : t = t' ∧ w = w' ∧ s = s' := by
  rw [snowflake_eq hw hs, snowflake_eq hw' hs'] at h
  rw [maxWorkerId_eq] at hw hw'
  rw [maxSequence_eq] at hs hs'
  omega

end Kaede
