import Kaede.Runs
import Kaede.WorkerLease

/-!
# Minting on one generator

`SnowflakeGenerator.mint` in `backend/app/core/snowflake.py`, cut at its
awaits: the regression sleep, the rollover sleep, the ownership lock and
the renewal round trip. Each stretch between two awaits is one step, so a
call can be cancelled at any of them; cancellation leaves the fields as
that stretch left them. The heartbeat task shares the lease and may move
its deadline or mark it lost between any two steps.
-/

namespace Kaede

/-- The await a suspended `mint` call stands at. -/
inductive MintPc where
  | idle
  | regressionSleep
  | rolloverSleep (deadline : Nat)
  | ownership (nowMs : Int)
  | renewing (nowMs : Int) (requestedAt : Nat)
deriving DecidableEq, Repr

/-- What `mint` raises besides the lease's own errors. -/
inductive MintError where
  | lease (e : LeaseError)
  | clockRegressed
  | rolloverStalled
  | beforeEpoch
  | timestampExhausted
deriving DecidableEq, Repr

def MintError.message : MintError → String
  | .lease e => e.message
  | .clockRegressed => "clock regressed by more than 5 seconds"
  | .rolloverStalled => "clock did not advance during sequence rollover"
  | .beforeEpoch => "clock is before the Kaede epoch"
  | .timestampExhausted => "snowflake timestamp exhausted the signed BIGINT range"

inductive MintOutcome where
  | suspended
  | raised (e : MintError)
  | returned (id : Nat)
  | cancelled
deriving DecidableEq, Repr

structure Generator where
  lease : WorkerLease
  /-- `_last_ms`, starting at -1. -/
  lastMs : Int
  /-- `_sequence`. -/
  sequence : Nat
  pc : MintPc
deriving DecidableEq, Repr

namespace Generator

/-- A generator as `SnowflakeGenerator.__init__` builds it. -/
def init (lease : WorkerLease) : Generator :=
  { lease := lease, lastMs := -1, sequence := 0, pc := .idle }

def raise (g : Generator) (e : MintError) : Generator × MintOutcome :=
  ({ g with pc := .idle }, .raised e)

/-- From the epoch check to the first validity check of `assert_owned`. -/
def present (g : Generator) (nowMs : Int) (monotonic : Nat) : Generator × MintOutcome :=
  if nowMs < epochMs then g.raise .beforeEpoch
  else if maxTimestamp < nowMs - epochMs then g.raise .timestampExhausted
  else
    match g.lease.valid monotonic with
    | (false, l) => ({ g with lease := l }).raise (.lease .leaseLost)
    | (true, l) => ({ g with lease := l, pc := .ownership nowMs }, .suspended)

/-- One check of the rollover loop before its sleep. -/
def rolloverWait (g : Generator) (deadline monotonic : Nat) : Generator × MintOutcome :=
  match g.lease.valid monotonic with
  | (false, l) => ({ g with lease := l }).raise (.lease .leaseLost)
  | (true, l) =>
      if deadline ≤ monotonic then ({ g with lease := l }).raise .rolloverStalled
      else ({ g with lease := l, pc := .rolloverSleep deadline }, .suspended)

/-- The sequence update for a reading that is not a regression. -/
def sequenceFor (g : Generator) (nowMs : Int) (monotonic : Nat) : Generator × MintOutcome :=
  if nowMs = g.lastMs then
    let g := { g with sequence := g.sequence + 1 }
    if maxSequence < g.sequence then g.rolloverWait (monotonic + 5 * second) monotonic
    else g.present nowMs monotonic
  else ({ g with sequence := 0 }).present nowMs monotonic

/-- `mint` from its lease check to the first await it reaches. -/
def start (g : Generator) (monotonic : Nat) (clockMs : Int) : Generator × MintOutcome :=
  match g.lease.valid monotonic with
  | (false, l) => ({ g with lease := l }).raise (.lease .leaseLost)
  | (true, l) =>
      let g := { g with lease := l }
      if clockMs < g.lastMs then
        if 5000 < g.lastMs - clockMs then g.raise .clockRegressed
        else ({ g with pc := .regressionSleep }, .suspended)
      else g.sequenceFor clockMs monotonic

end Generator

/-- What the environment supplies at one step of a generator's use. -/
inductive MintInput where
  | call (monotonic : Nat) (clockMs : Int)
  | wake (monotonic : Nat) (clockMs : Int)
  | tick (monotonic : Nat) (clockMs : Int)
  | locked (monotonic : Nat)
  | replied (monotonic : Nat) (reply : RenewReply)
  | cancel
  | heartbeatRenewed (validUntil : Nat)
  | heartbeatLost
deriving DecidableEq, Repr

namespace Generator

/-- One step of the generator; `none` when the input does not fit the await
the call stands at. -/
def step (g : Generator) : MintInput → Option (Generator × MintOutcome)
  | .call monotonic clockMs =>
      match g.pc with
      | .idle => some (g.start monotonic clockMs)
      | _ => none
  | .wake monotonic clockMs =>
      match g.pc with
      | .regressionSleep => some (g.sequenceFor (max clockMs g.lastMs) monotonic)
      | _ => none
  | .tick monotonic clockMs =>
      match g.pc with
      | .rolloverSleep deadline =>
          if clockMs ≤ g.lastMs then some (g.rolloverWait deadline monotonic)
          else some (({ g with sequence := 0 }).present clockMs monotonic)
      | _ => none
  | .locked monotonic =>
      match g.pc with
      | .ownership nowMs =>
          match g.lease.valid monotonic with
          | (false, l) => some (({ g with lease := l }).raise (.lease .leaseLost))
          | (true, l) => some ({ g with lease := l, pc := .renewing nowMs monotonic }, .suspended)
      | _ => none
  | .replied monotonic reply =>
      match g.pc with
      | .renewing nowMs requestedAt =>
          match g.lease.confirm requestedAt monotonic reply with
          | (.error e, l) => some (({ g with lease := l }).raise (.lease e))
          | (.ok (), l) =>
              some ({ g with lease := l, lastMs := nowMs, pc := .idle },
                .returned (snowflake (nowMs - epochMs).toNat l.workerId g.sequence))
      | _ => none
  | .cancel =>
      match g.pc with
      | .idle => none
      | _ => some ({ g with pc := .idle }, .cancelled)
  | .heartbeatRenewed validUntil =>
      some ({ g with lease := { g.lease with validUntil := some validUntil } }, .suspended)
  | .heartbeatLost => some ({ g with lease := g.lease.lose }, .suspended)

end Generator

/-- A generator together with the identifiers it has returned, newest first. -/
structure Minting where
  gen : Generator
  issued : List Nat
deriving DecidableEq, Repr

namespace Minting

def init (lease : WorkerLease) : Minting := { gen := Generator.init lease, issued := [] }

def step (s : Minting) (i : MintInput) : Option Minting :=
  (s.gen.step i).map fun (g, o) =>
    match o with
    | .returned id => { gen := g, issued := id :: s.issued }
    | _ => { gen := g, issued := s.issued }

end Minting

namespace Generator

/-! ## What each stretch can do

One inversion lemma per stretch; the invariant below never unfolds them. -/

theorem present_cases {g g' : Generator} {nowMs : Int} {m : Nat} {o : MintOutcome}
    (h : g.present nowMs m = (g', o)) :
    (nowMs < epochMs ∧ g' = { g with pc := .idle } ∧ o = .raised .beforeEpoch)
      ∨ (maxTimestamp < nowMs - epochMs ∧ g' = { g with pc := .idle }
          ∧ o = .raised .timestampExhausted)
      ∨ (g' = { g with lease := g.lease.lose, pc := .idle } ∧ o = .raised (.lease .leaseLost))
      ∨ (epochMs ≤ nowMs ∧ g' = { g with pc := .ownership nowMs } ∧ o = .suspended) := by
  unfold present at h
  split at h
  · rename_i hlt
    obtain ⟨rfl, rfl⟩ := Prod.mk.inj h
    exact Or.inl ⟨hlt, rfl, rfl⟩
  · rename_i hge
    split at h
    · rename_i hmax
      obtain ⟨rfl, rfl⟩ := Prod.mk.inj h
      exact Or.inr (Or.inl ⟨hmax, rfl, rfl⟩)
    · split at h
      · rename_i l hv
        obtain ⟨rfl, rfl⟩ := Prod.mk.inj h
        obtain rfl := WorkerLease.valid_false hv
        exact Or.inr (Or.inr (Or.inl ⟨rfl, rfl⟩))
      · rename_i l hv
        obtain ⟨rfl, rfl⟩ := Prod.mk.inj h
        obtain ⟨rfl, -⟩ := WorkerLease.valid_true hv
        exact Or.inr (Or.inr (Or.inr ⟨Int.not_lt.mp hge, rfl, rfl⟩))

theorem rolloverWait_cases {g g' : Generator} {d m : Nat} {o : MintOutcome}
    (h : g.rolloverWait d m = (g', o)) :
    (g' = { g with lease := g.lease.lose, pc := .idle } ∧ o = .raised (.lease .leaseLost))
      ∨ (g' = { g with pc := .idle } ∧ o = .raised .rolloverStalled)
      ∨ (g' = { g with pc := .rolloverSleep d } ∧ o = .suspended) := by
  unfold rolloverWait at h
  split at h
  · rename_i l hv
    obtain ⟨rfl, rfl⟩ := Prod.mk.inj h
    obtain rfl := WorkerLease.valid_false hv
    exact Or.inl ⟨rfl, rfl⟩
  · rename_i l hv
    obtain ⟨rfl, -⟩ := WorkerLease.valid_true hv
    split at h
    · obtain ⟨rfl, rfl⟩ := Prod.mk.inj h
      exact Or.inr (Or.inl ⟨rfl, rfl⟩)
    · obtain ⟨rfl, rfl⟩ := Prod.mk.inj h
      exact Or.inr (Or.inr ⟨rfl, rfl⟩)

/-! ## The invariant -/

/-- Where an identifier returned for `(m, q)` stands against the fields. A
candidate waiting for its lease must exceed it; otherwise the fields must
have reached it, unless the lease is gone and nothing is returned again. -/
def Covers (g : Generator) (m : Int) (q : Nat) : Prop :=
  m ≤ g.lastMs ∧
    match g.pc with
    | .idle => g.lease.lost = true ∨ m < g.lastMs ∨ q ≤ g.sequence
    | .regressionSleep => m < g.lastMs ∨ q ≤ g.sequence
    | .rolloverSleep _ => m < g.lastMs ∨ q ≤ g.sequence
    | .ownership nowMs => m < nowMs ∨ q < g.sequence
    | .renewing nowMs _ => m < nowMs ∨ q < g.sequence

/-- A candidate waiting for its lease is in range and not in the past. -/
def CandidateOK (g : Generator) : Prop :=
  match g.pc with
  | .ownership nowMs => g.lastMs ≤ nowMs ∧ epochMs ≤ nowMs ∧ g.sequence ≤ maxSequence
  | .renewing nowMs _ => g.lastMs ≤ nowMs ∧ epochMs ≤ nowMs ∧ g.sequence ≤ maxSequence
  | _ => True

/-- The step does not throw away a `_sequence` reset: once an identifier
has been returned, no call is cancelled inside `assert_owned` for a
millisecond after `_last_ms`, and no reading lies past the 41-bit range. -/
def Keeps (g : Generator) : MintInput → Prop
  | .cancel =>
      match g.pc with
      | .ownership nowMs => nowMs ≤ g.lastMs ∨ g.lastMs < epochMs
      | .renewing nowMs _ => nowMs ≤ g.lastMs ∨ g.lastMs < epochMs
      | _ => True
  | .call _ clockMs => clockMs - epochMs ≤ maxTimestamp ∨ g.lastMs < epochMs
  | .wake _ clockMs => clockMs - epochMs ≤ maxTimestamp ∨ g.lastMs < epochMs
  | .tick _ clockMs => clockMs - epochMs ≤ maxTimestamp ∨ g.lastMs < epochMs
  | _ => True

/-- The candidate a stretch presents covers what the fields covered: either
it repeats `_last_ms` with a larger sequence or its millisecond is new. -/
theorem present_covers {g g' : Generator} {nowMs : Int} {mono : Nat} {o : MintOutcome}
    (h : g.present nowMs mono = (g', o)) {m : Int} {q : Nat} (hm : epochMs ≤ m)
    (hle : m ≤ g.lastMs) (hnow : g.lastMs ≤ nowMs) (hcand : m < nowMs ∨ q < g.sequence)
    (hkeep : nowMs = g.lastMs ∨ nowMs - epochMs ≤ maxTimestamp) : g'.Covers m q := by
  rcases present_cases h with ⟨hlt, rfl, -⟩ | ⟨hmax, rfl, -⟩ | ⟨rfl, -⟩ | ⟨-, rfl, -⟩
  · omega
  · refine ⟨hle, Or.inr ?_⟩
    simp only
    omega
  · exact ⟨hle, Or.inl rfl⟩
  · exact ⟨hle, hcand⟩

theorem rolloverWait_covers {g g' : Generator} {d mono : Nat} {o : MintOutcome}
    (h : g.rolloverWait d mono = (g', o)) {m : Int} {q : Nat} (hle : m ≤ g.lastMs)
    (hreach : m < g.lastMs ∨ q ≤ g.sequence) : g'.Covers m q := by
  rcases rolloverWait_cases h with ⟨rfl, -⟩ | ⟨rfl, -⟩ | ⟨rfl, -⟩
  · exact ⟨hle, Or.inl rfl⟩
  · exact ⟨hle, Or.inr hreach⟩
  · exact ⟨hle, hreach⟩

theorem sequenceFor_covers {g g' : Generator} {nowMs : Int} {mono : Nat} {o : MintOutcome}
    (h : g.sequenceFor nowMs mono = (g', o)) {m : Int} {q : Nat} (hm : epochMs ≤ m)
    (hle : m ≤ g.lastMs) (hreach : m < g.lastMs ∨ q ≤ g.sequence) (hnow : g.lastMs ≤ nowMs)
    (hkeep : nowMs = g.lastMs ∨ nowMs - epochMs ≤ maxTimestamp) : g'.Covers m q := by
  unfold sequenceFor at h
  split at h
  · rename_i heq
    simp only at h
    split at h
    · exact rolloverWait_covers h hle (by simp only; omega)
    · exact present_covers h hm hle hnow (by simp only; omega) hkeep
  · rename_i hne
    exact present_covers h hm hle hnow (Or.inl (by omega)) hkeep

theorem step_covers {g g' : Generator} {i : MintInput} {o : MintOutcome}
    (h : g.step i = some (g', o)) (hkeep : g.Keeps i) (hok : g.CandidateOK)
    {m : Int} {q : Nat} (hm : epochMs ≤ m) (hcov : g.Covers m q) : g'.Covers m q := by
  obtain ⟨hle, hpos⟩ := hcov
  cases i with
  | call mono clockMs =>
      cases hpc : g.pc <;> simp only [step, hpc, Option.some.injEq, reduceCtorEq] at h
      simp only [hpc] at hpos
      simp only [Keeps] at hkeep
      unfold start at h
      split at h
      · rename_i l hv
        obtain ⟨rfl, rfl⟩ := Prod.mk.inj h
        obtain rfl := WorkerLease.valid_false hv
        exact ⟨hle, Or.inl rfl⟩
      · rename_i l hv
        obtain ⟨rfl, hlost⟩ := WorkerLease.valid_true hv
        have hreach : m < g.lastMs ∨ q ≤ g.sequence := by simpa [hlost] using hpos
        simp only at h
        split at h
        · split at h
          · obtain ⟨rfl, rfl⟩ := Prod.mk.inj h
            exact ⟨hle, Or.inr hreach⟩
          · obtain ⟨rfl, rfl⟩ := Prod.mk.inj h
            exact ⟨hle, hreach⟩
        · rename_i hge
          exact sequenceFor_covers h hm hle hreach (Int.not_lt.mp hge) (Or.inr (by omega))
  | wake mono clockMs =>
      cases hpc : g.pc <;> simp only [step, hpc, Option.some.injEq, reduceCtorEq] at h
      simp only [hpc] at hpos
      simp only [Keeps] at hkeep
      refine sequenceFor_covers h hm hle hpos (Int.le_max_right _ _) ?_
      rcases Int.le_total clockMs g.lastMs with hc | hc
      · exact Or.inl (Int.max_eq_right hc)
      · rw [Int.max_eq_left hc]
        exact Or.inr (by omega)
  | tick mono clockMs =>
      cases hpc : g.pc <;> simp only [step, hpc, reduceCtorEq] at h
      simp only [hpc] at hpos
      simp only [Keeps] at hkeep
      split at h
      · exact rolloverWait_covers (Option.some.inj h) hle hpos
      · rename_i hgt
        exact present_covers (Option.some.inj h) hm hle (Int.le_of_lt (Int.not_le.mp hgt))
          (Or.inl (by omega)) (Or.inr (by omega))
  | locked mono =>
      cases hpc : g.pc <;> simp only [step, hpc, reduceCtorEq] at h
      simp only [hpc] at hpos
      split at h
      · rename_i l hv
        obtain ⟨rfl, rfl⟩ := Prod.mk.inj (Option.some.inj h)
        obtain rfl := WorkerLease.valid_false hv
        exact ⟨hle, Or.inl rfl⟩
      · obtain ⟨rfl, rfl⟩ := Prod.mk.inj (Option.some.inj h)
        exact ⟨hle, hpos⟩
  | replied mono reply =>
      cases hpc : g.pc <;> simp only [step, hpc, reduceCtorEq] at h
      simp only [hpc] at hpos
      simp only [CandidateOK, hpc] at hok
      split at h
      · rename_i e l hv
        obtain ⟨rfl, rfl⟩ := Prod.mk.inj (Option.some.inj h)
        obtain rfl := WorkerLease.confirm_error hv
        exact ⟨hle, Or.inl rfl⟩
      · obtain ⟨rfl, rfl⟩ := Prod.mk.inj (Option.some.inj h)
        refine ⟨Int.le_trans hle hok.1, Or.inr ?_⟩
        simp only
        omega
  | cancel =>
      cases hpc : g.pc <;>
        simp only [step, hpc, Option.some.injEq, Prod.mk.injEq, reduceCtorEq] at h <;>
        simp only [hpc] at hpos <;> simp only [Keeps, hpc] at hkeep <;>
        obtain ⟨rfl, -⟩ := h <;> refine ⟨hle, Or.inr ?_⟩ <;> simp only <;> omega
  | heartbeatRenewed validUntil =>
      obtain ⟨rfl, -⟩ := Prod.mk.inj (Option.some.inj h)
      exact ⟨hle, hpos⟩
  | heartbeatLost =>
      obtain ⟨rfl, -⟩ := Prod.mk.inj (Option.some.inj h)
      refine ⟨hle, ?_⟩
      cases hpc : g.pc <;> simp only [hpc] at hpos ⊢
      · exact Or.inl rfl
      all_goals exact hpos

theorem present_candidateOK {g g' : Generator} {nowMs : Int} {mono : Nat} {o : MintOutcome}
    (h : g.present nowMs mono = (g', o)) (hnow : g.lastMs ≤ nowMs)
    (hseq : g.sequence ≤ maxSequence) : g'.CandidateOK := by
  rcases present_cases h with ⟨-, rfl, -⟩ | ⟨-, rfl, -⟩ | ⟨rfl, -⟩ | ⟨hepoch, rfl, -⟩
  · trivial
  · trivial
  · trivial
  · exact ⟨hnow, hepoch, hseq⟩

theorem rolloverWait_candidateOK {g g' : Generator} {d mono : Nat} {o : MintOutcome}
    (h : g.rolloverWait d mono = (g', o)) : g'.CandidateOK := by
  rcases rolloverWait_cases h with ⟨rfl, -⟩ | ⟨rfl, -⟩ | ⟨rfl, -⟩ <;> trivial

theorem sequenceFor_candidateOK {g g' : Generator} {nowMs : Int} {mono : Nat}
    {o : MintOutcome} (h : g.sequenceFor nowMs mono = (g', o)) (hnow : g.lastMs ≤ nowMs) :
    g'.CandidateOK := by
  unfold sequenceFor at h
  split at h
  · simp only at h
    split at h
    · exact rolloverWait_candidateOK h
    · rename_i hseq
      exact present_candidateOK h hnow (Nat.not_lt.mp hseq)
  · exact present_candidateOK h hnow (Nat.zero_le _)

theorem step_candidateOK {g g' : Generator} {i : MintInput} {o : MintOutcome}
    (h : g.step i = some (g', o)) (hok : g.CandidateOK) : g'.CandidateOK := by
  cases i with
  | call mono clockMs =>
      cases hpc : g.pc <;> simp only [step, hpc, Option.some.injEq, reduceCtorEq] at h
      unfold start at h
      split at h
      · obtain ⟨rfl, -⟩ := Prod.mk.inj h
        trivial
      · rename_i l hv
        obtain ⟨rfl, -⟩ := WorkerLease.valid_true hv
        simp only at h
        split at h
        · split at h
          · obtain ⟨rfl, -⟩ := Prod.mk.inj h
            trivial
          · obtain ⟨rfl, -⟩ := Prod.mk.inj h
            trivial
        · rename_i hge
          exact sequenceFor_candidateOK h (Int.not_lt.mp hge)
  | wake mono clockMs =>
      cases hpc : g.pc <;> simp only [step, hpc, Option.some.injEq, reduceCtorEq] at h
      exact sequenceFor_candidateOK h (Int.le_max_right _ _)
  | tick mono clockMs =>
      cases hpc : g.pc <;> simp only [step, hpc, reduceCtorEq] at h
      split at h
      · exact rolloverWait_candidateOK (Option.some.inj h)
      · rename_i hgt
        exact present_candidateOK (Option.some.inj h) (Int.le_of_lt (Int.not_le.mp hgt))
          (Nat.zero_le _)
  | locked mono =>
      cases hpc : g.pc <;> simp only [step, hpc, reduceCtorEq] at h
      simp only [CandidateOK, hpc] at hok
      split at h
      · obtain ⟨rfl, -⟩ := Prod.mk.inj (Option.some.inj h)
        trivial
      · obtain ⟨rfl, -⟩ := Prod.mk.inj (Option.some.inj h)
        exact hok
  | replied mono reply =>
      cases hpc : g.pc <;> simp only [step, hpc, reduceCtorEq] at h
      split at h <;> obtain ⟨rfl, -⟩ := Prod.mk.inj (Option.some.inj h) <;> trivial
  | cancel =>
      cases hpc : g.pc <;>
        simp only [step, hpc, Option.some.injEq, Prod.mk.injEq, reduceCtorEq] at h <;>
        obtain ⟨rfl, -⟩ := h <;> trivial
  | heartbeatRenewed validUntil =>
      obtain ⟨rfl, -⟩ := Prod.mk.inj (Option.some.inj h)
      exact hok
  | heartbeatLost =>
      obtain ⟨rfl, -⟩ := Prod.mk.inj (Option.some.inj h)
      exact hok

theorem present_frame {g g' : Generator} {nowMs : Int} {mono : Nat} {o : MintOutcome}
    (h : g.present nowMs mono = (g', o)) :
    g'.lease.workerId = g.lease.workerId ∧ ∀ id, o ≠ .returned id := by
  rcases present_cases h with ⟨-, rfl, rfl⟩ | ⟨-, rfl, rfl⟩ | ⟨rfl, rfl⟩ | ⟨-, rfl, rfl⟩ <;>
    exact ⟨rfl, fun _ => nofun⟩

theorem rolloverWait_frame {g g' : Generator} {d mono : Nat} {o : MintOutcome}
    (h : g.rolloverWait d mono = (g', o)) :
    g'.lease.workerId = g.lease.workerId ∧ ∀ id, o ≠ .returned id := by
  rcases rolloverWait_cases h with ⟨rfl, rfl⟩ | ⟨rfl, rfl⟩ | ⟨rfl, rfl⟩ <;>
    exact ⟨rfl, fun _ => nofun⟩

theorem sequenceFor_frame {g g' : Generator} {nowMs : Int} {mono : Nat} {o : MintOutcome}
    (h : g.sequenceFor nowMs mono = (g', o)) :
    g'.lease.workerId = g.lease.workerId ∧ ∀ id, o ≠ .returned id := by
  unfold sequenceFor at h
  split at h
  · simp only at h
    split at h
    · have hf := rolloverWait_frame h
      exact hf
    · have hf := present_frame h
      exact hf
  · have hf := present_frame h
    exact hf

/-- `id` is what the step returns: the candidate waiting for its renewal,
which `_last_ms` then records. -/
def Returns (g : Generator) (i : MintInput) (g' : Generator) (id : Nat) : Prop :=
  ∃ nowMs requestedAt mono, g.pc = .renewing nowMs requestedAt
    ∧ i = .replied mono (.renewed 1)
    ∧ id = snowflake (nowMs - epochMs).toNat g.lease.workerId g.sequence
    ∧ g'.pc = .idle ∧ g'.lastMs = nowMs ∧ g'.sequence = g.sequence

/-- The worker never changes, and only a confirmed renewal returns. -/
theorem step_frame {g g' : Generator} {i : MintInput} {o : MintOutcome}
    (h : g.step i = some (g', o)) :
    g'.lease.workerId = g.lease.workerId ∧ ∀ id, o = .returned id → g.Returns i g' id := by
  have quiet : (g'.lease.workerId = g.lease.workerId ∧ ∀ id, o ≠ .returned id) →
      g'.lease.workerId = g.lease.workerId ∧ ∀ id, o = .returned id → g.Returns i g' id :=
    fun hq => ⟨hq.1, fun id hid => absurd hid (hq.2 id)⟩
  cases i with
  | call mono clockMs =>
      cases hpc : g.pc <;> simp only [step, hpc, Option.some.injEq, reduceCtorEq] at h
      apply quiet
      unfold start at h
      split at h
      · rename_i l hv
        obtain rfl := WorkerLease.valid_false hv
        obtain ⟨rfl, rfl⟩ := Prod.mk.inj h
        exact ⟨rfl, fun _ => nofun⟩
      · rename_i l hv
        obtain ⟨rfl, -⟩ := WorkerLease.valid_true hv
        simp only at h
        split at h
        · split at h <;> obtain ⟨rfl, rfl⟩ := Prod.mk.inj h <;> exact ⟨rfl, fun _ => nofun⟩
        · exact sequenceFor_frame h
  | wake mono clockMs =>
      cases hpc : g.pc <;> simp only [step, hpc, Option.some.injEq, reduceCtorEq] at h
      exact quiet (sequenceFor_frame h)
  | tick mono clockMs =>
      cases hpc : g.pc <;> simp only [step, hpc, reduceCtorEq] at h
      split at h
      · exact quiet (rolloverWait_frame (Option.some.inj h))
      · have hf := present_frame (Option.some.inj h)
        exact quiet hf
  | locked mono =>
      cases hpc : g.pc <;> simp only [step, hpc, reduceCtorEq] at h
      split at h
      · rename_i l hv
        obtain rfl := WorkerLease.valid_false hv
        obtain ⟨rfl, rfl⟩ := Prod.mk.inj (Option.some.inj h)
        exact quiet ⟨rfl, fun _ => nofun⟩
      · rename_i l hv
        obtain ⟨rfl, -⟩ := WorkerLease.valid_true hv
        obtain ⟨rfl, rfl⟩ := Prod.mk.inj (Option.some.inj h)
        exact quiet ⟨rfl, fun _ => nofun⟩
  | replied mono reply =>
      cases hpc : g.pc with
      | renewing nowMs requestedAt =>
          simp only [step, hpc] at h
          split at h
          · rename_i e l hv
            obtain rfl := WorkerLease.confirm_error hv
            obtain ⟨rfl, rfl⟩ := Prod.mk.inj (Option.some.inj h)
            exact quiet ⟨rfl, fun _ => nofun⟩
          · rename_i l hv
            obtain ⟨rfl, -, rfl⟩ := WorkerLease.confirm_ok hv
            obtain ⟨rfl, rfl⟩ := Prod.mk.inj (Option.some.inj h)
            refine ⟨rfl, fun id hid => ⟨nowMs, requestedAt, mono, hpc, rfl, ?_, rfl, rfl, rfl⟩⟩
            exact (MintOutcome.returned.inj hid).symm
      | _ => simp only [step, hpc, reduceCtorEq] at h
  | cancel =>
      cases hpc : g.pc <;>
        simp only [step, hpc, Option.some.injEq, Prod.mk.injEq, reduceCtorEq] at h <;>
        obtain ⟨rfl, rfl⟩ := h <;> exact quiet ⟨rfl, fun _ => nofun⟩
  | heartbeatRenewed validUntil =>
      obtain ⟨rfl, rfl⟩ := Prod.mk.inj (Option.some.inj h)
      exact quiet ⟨rfl, fun _ => nofun⟩
  | heartbeatLost =>
      obtain ⟨rfl, rfl⟩ := Prod.mk.inj (Option.some.inj h)
      exact quiet ⟨rfl, fun _ => nofun⟩

end Generator

namespace Minting

/-! ## Whole runs -/

/-- The run invariant: identifiers come out strictly increasing, and every
one of them is covered by the fields it will be compared with. -/
structure Inv (s : Minting) : Prop where
  worker : s.gen.lease.workerId ≤ maxWorkerId
  candidate : s.gen.CandidateOK
  increasing : s.issued.Pairwise (· > ·)
  covered : ∀ id ∈ s.issued, ∃ (m : Int) (q : Nat), epochMs ≤ m ∧ q ≤ maxSequence
    ∧ id = snowflake (m - epochMs).toNat s.gen.lease.workerId q ∧ s.gen.Covers m q

theorem inv_init {l : WorkerLease} (hl : l.workerId ≤ maxWorkerId) : (init l).Inv where
  worker := hl
  candidate := trivial
  increasing := List.Pairwise.nil
  covered := fun id hid => by cases hid

/-- The candidate is larger than everything the fields cover. -/
theorem issued_lt_candidate {s : Minting} (hs : s.Inv) {nowMs : Int} {r : Nat}
    (hpc : s.gen.pc = .renewing nowMs r) {id : Nat} (hid : id ∈ s.issued) :
    id < snowflake (nowMs - epochMs).toNat s.gen.lease.workerId s.gen.sequence := by
  obtain ⟨m, q, hm, hq, rfl, hcov⟩ := hs.covered id hid
  have hok := hs.candidate
  simp only [Generator.CandidateOK, hpc] at hok
  simp only [Generator.Covers, hpc] at hcov
  rcases Int.lt_or_le m nowMs with hlt | hge
  · exact snowflake_lt_of_timestamp hs.worker hq hok.2.2 (by omega)
  · have heq : m = nowMs := by omega
    rw [heq]
    exact snowflake_lt_of_sequence hs.worker hq hok.2.2 (by omega)

theorem step_inv {s s' : Minting} {i : MintInput} (hs : s.Inv) (hkeep : s.gen.Keeps i)
    (h : s.step i = some s') : s'.Inv := by
  obtain ⟨⟨g, o⟩, hg, hs'⟩ := Option.map_eq_some_iff.mp h
  obtain ⟨hworker, hret⟩ := Generator.step_frame hg
  have hcovered : ∀ id ∈ s.issued, ∃ (m : Int) (q : Nat), epochMs ≤ m ∧ q ≤ maxSequence
      ∧ id = snowflake (m - epochMs).toNat g.lease.workerId q ∧ g.Covers m q := by
    intro id hid
    obtain ⟨m, q, hm, hq, heq, hcov⟩ := hs.covered id hid
    exact ⟨m, q, hm, hq, by rw [hworker]; exact heq,
      Generator.step_covers hg hkeep hs.candidate hm hcov⟩
  have hcand := Generator.step_candidateOK hg hs.candidate
  cases o with
  | returned id =>
      subst hs'
      obtain ⟨nowMs, r, mono, hpc, -, hidEq, hpc', hlast, hseq⟩ := hret id rfl
      have hok := hs.candidate
      simp only [Generator.CandidateOK, hpc] at hok
      refine ⟨by rw [hworker]; exact hs.worker, hcand, ?_, ?_⟩
      · refine List.pairwise_cons.mpr ⟨fun old hold => ?_, hs.increasing⟩
        rw [hidEq]
        exact issued_lt_candidate hs hpc hold
      · intro id' hid'
        rcases List.mem_cons.mp hid' with rfl | hold
        · refine ⟨nowMs, s.gen.sequence, hok.2.1, hok.2.2, ?_, ?_⟩
          · rw [hworker]
            exact hidEq
          · simp only [Generator.Covers, hpc', hlast, hseq]
            omega
        · exact hcovered id' hold
  | suspended => subst hs'; exact ⟨by rw [hworker]; exact hs.worker, hcand, hs.increasing, hcovered⟩
  | raised e => subst hs'; exact ⟨by rw [hworker]; exact hs.worker, hcand, hs.increasing, hcovered⟩
  | cancelled => subst hs'; exact ⟨by rw [hworker]; exact hs.worker, hcand, hs.increasing, hcovered⟩

/-- The guard of a run: no step throws away a sequence reset. -/
def KeepsReset (s : Minting) (i : MintInput) : Prop := s.gen.Keeps i

instance (s : Minting) (i : MintInput) : Decidable (s.KeepsReset i) := by
  unfold KeepsReset Generator.Keeps
  cases i <;> first | infer_instance | (cases s.gen.pc <;> infer_instance)

/-- **One generator never repeats itself** as long as no call abandons a
sequence reset: the identifiers of the whole run, whatever the clocks read
and however the other calls end, are strictly increasing. -/
theorem mint_strictly_increasing {l : WorkerLease} (hl : l.workerId ≤ maxWorkerId)
    {is : List MintInput} {s : Minting} (hrun : Exec step KeepsReset (init l) is s) :
    s.issued.reverse.Pairwise (· < ·) := by
  have hinv : s.Inv := hrun.invariant (fun _ _ _ hs hk h => step_inv hs hk h) (inv_init hl)
  exact List.pairwise_reverse.mpr hinv.increasing

/-- A lease on worker 0 that is good for the whole sample run. -/
def sampleLease : WorkerLease :=
  { workerId := 0, owner := 7, validUntil := some (leaseTtlSeconds * second),
    leaseTtl := leaseTtlSeconds * second, lost := false }

/-- One undisturbed call at clock reading `clockMs`. -/
def plainCall (clockMs : Int) : List MintInput :=
  [.call 0 clockMs, .locked 0, .replied 0 (.renewed 1)]

theorem mint_strictly_increasing_sample :
    ∃ s, Exec step KeepsReset (init sampleLease)
        (plainCall epochMs ++ plainCall epochMs ++ plainCall (epochMs + 1)) s
      ∧ s.issued.reverse = [0, 1, 4194304] ∧ s.issued.reverse.Pairwise (· < ·) := by
  have hrun : runFrom step KeepsReset (init sampleLease)
      (plainCall epochMs ++ plainCall epochMs ++ plainCall (epochMs + 1))
      = some { gen := { Generator.init sampleLease with lastMs := epochMs + 1 },
               issued := [4194304, 1, 0] } := by decide +kernel
  exact ⟨_, Exec.of_runFrom hrun, by decide,
    mint_strictly_increasing (by decide) (Exec.of_runFrom hrun)⟩

/-- A call that reads the next millisecond and is cancelled while its lease
is being confirmed resets `_sequence` without moving `_last_ms`; when the
clock then reads the old millisecond again, its second identifier comes out
a second time. -/
theorem mint_repeats_after_cancelled_reset :
    ∃ s, Exec step Always (init sampleLease)
        (plainCall epochMs ++ plainCall epochMs
          ++ [.call 0 (epochMs + 1), .locked 0, .cancel] ++ plainCall epochMs) s
      ∧ s.issued.reverse = [0, 1, 1] ∧ ¬ s.issued.reverse.Pairwise (· < ·)
      ∧ ¬ s.issued.Nodup := by
  have hrun : runFrom step Always (init sampleLease)
      (plainCall epochMs ++ plainCall epochMs
        ++ [.call 0 (epochMs + 1), .locked 0, .cancel] ++ plainCall epochMs)
      = some { gen := { Generator.init sampleLease with lastMs := epochMs, sequence := 1 },
               issued := [1, 1, 0] } := by decide +kernel
  exact ⟨_, Exec.of_runFrom hrun, by decide, by decide, by decide⟩

end Minting

end Kaede
