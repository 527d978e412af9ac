import Mathlib.Data.List.Basic
import Mathlib.Order.Nat

/-!
# Searching upwards

A loop that tries one candidate after the other, `candidate k`,
`candidate (k + 1)` and so on, until one is accepted or raises. It has no
bound of its own, so it takes fuel, and `stuck` is how it ends without.

The loop ends just when some candidate does not let it go on
(`search_converges`, `search_stuck`), and what it gives is the first of
those (`search_eq_ok`). `hits` lists all candidates that are accepted below
a bound: searching on from behind the first leaves the others
(`hits_eq_cons`).
-/

namespace Kaede

section

variable {α ε : Type*} {candidate : Nat → Except ε (Option α)} {stuck : ε} {fuel k j : Nat} {t : α}

def search (candidate : Nat → Except ε (Option α)) (stuck : ε) : Nat → Nat → Except ε α
  | 0, _ => .error stuck
  | fuel + 1, k =>
      match candidate k with
      | .error e => .error e
      | .ok (some t) => .ok t
      | .ok none => search candidate stuck fuel (k + 1)

theorem search_of_error {e : ε} (h : candidate k = .error e) :
    search candidate stuck (fuel + 1) k = .error e := by
  rw [search, h]

theorem search_of_some (h : candidate k = .ok (some t)) :
    search candidate stuck (fuel + 1) k = .ok t := by
  rw [search, h]

theorem search_of_none (h : candidate k = .ok none) :
    search candidate stuck (fuel + 1) k = search candidate stuck fuel (k + 1) := by
  rw [search, h]

theorem search_eq_ok (h : search candidate stuck fuel k = .ok t) :
    ∃ j, k ≤ j ∧ candidate j = .ok (some t) ∧ ∀ i, k ≤ i → i < j → candidate i = .ok none := by
  induction fuel generalizing k with
  | zero => cases h
  | succ fuel ih =>
      rw [search] at h
      split at h
      · cases h
      · rename_i u hu
        obtain rfl := Except.ok.inj h
        exact ⟨k, le_rfl, hu, fun i hi hi' => by omega⟩
      · rename_i hnone
        obtain ⟨j, hj, hcandidate, hfirst⟩ := ih h
        refine ⟨j, by omega, hcandidate, fun i hi hi' => ?_⟩
        rcases Nat.lt_or_ge k i with hlt | hge
        · exact hfirst i hlt hi'
        · obtain rfl : i = k := by omega
          exact hnone

theorem search_eq_error {e : ε} (h : search candidate stuck fuel k = .error e) :
    e = stuck ∨ ∃ i, candidate i = .error e := by
  induction fuel generalizing k with
  | zero => exact .inl (Except.error.inj h).symm
  | succ fuel ih =>
      rw [search] at h
      split at h
      · rename_i e' he
        exact .inr ⟨k, he.trans (congrArg Except.error (Except.error.inj h))⟩
      · cases h
      · exact ih h

/-- The loop gets past the candidates that let it go on. -/
theorem search_skip (hj : k ≤ j) (hnone : ∀ i, k ≤ i → i < j → candidate i = .ok none)
    (fuel : Nat) : search candidate stuck (fuel + (j - k)) k = search candidate stuck fuel j := by
  obtain ⟨n, rfl⟩ := Nat.exists_eq_add_of_le hj
  rw [Nat.add_sub_cancel_left]
  clear hj
  induction n generalizing k with
  | zero => rfl
  | succ n ih =>
      rw [← Nat.add_assoc, search_of_none (hnone k le_rfl (by omega))]
      have hih := ih (k := k + 1) fun i hi hi' => hnone i (by omega) (by omega)
      rw [hih, Nat.add_right_comm, Nat.add_assoc]

theorem search_hit (hj : k ≤ j) (hnone : ∀ i, k ≤ i → i < j → candidate i = .ok none)
    (hhit : candidate j = .ok (some t)) (hfuel : j - k < fuel) :
    search candidate stuck fuel k = .ok t := by
  obtain ⟨n, rfl⟩ : ∃ n, fuel = n + 1 + (j - k) := ⟨fuel - (j - k) - 1, by omega⟩
  rw [search_skip hj hnone, search_of_some hhit]

/-- A candidate that does not let the loop go on ends it, on any larger fuel
in the same way. -/
theorem search_converges (herror : ∀ i e, candidate i = .error e → e ≠ stuck)
    (h : ∃ j, k ≤ j ∧ candidate j ≠ .ok none) :
    ∃ x, x ≠ .error stuck ∧ ∃ n, ∀ fuel, n ≤ fuel → search candidate stuck fuel k = x := by
  classical
  obtain ⟨hj, hcandidate⟩ := Nat.find_spec h
  set j := Nat.find h
  have hnone : ∀ i, k ≤ i → i < j → candidate i = .ok none := by
    intro i hi hi'
    by_contra hsome
    exact Nat.find_min h hi' ⟨hi, hsome⟩
  have hsearch {x : Except ε α} (hx : ∀ n, search candidate stuck (n + 1) j = x) :
      ∃ n, ∀ fuel, n ≤ fuel → search candidate stuck fuel k = x := by
    refine ⟨j - k + 1, fun fuel hfuel => ?_⟩
    obtain ⟨n, rfl⟩ : ∃ n, fuel = n + 1 + (j - k) := ⟨fuel - (j - k) - 1, by omega⟩
    rw [search_skip hj hnone, hx]
  cases hcase : candidate j with
  | error e =>
      refine ⟨.error e, fun h => herror j e hcase (Except.error.inj h), hsearch fun n => ?_⟩
      rw [search_of_error hcase]
  | ok found =>
      cases found with
      | none => exact absurd hcase hcandidate
      | some t =>
          refine ⟨.ok t, (fun h => by cases h), hsearch fun n => ?_⟩
          rw [search_of_some hcase]

theorem search_stuck (hnone : ∀ i, k ≤ i → candidate i = .ok none) (fuel : Nat) :
    search candidate stuck fuel k = .error stuck := by
  induction fuel generalizing k with
  | zero => rfl
  | succ fuel ih =>
      rw [search_of_none (hnone k le_rfl)]
      exact ih fun i hi => hnone i (by omega)

/-- The loop reads the candidates from `k` on. -/
theorem search_congr {candidate' : Nat → Except ε (Option α)}
    (h : ∀ i, k ≤ i → candidate i = candidate' i) (fuel : Nat) :
    search candidate stuck fuel k = search candidate' stuck fuel k := by
  induction fuel generalizing k with
  | zero => rfl
  | succ fuel ih => rw [search, search, h k le_rfl, ih fun i hi => h i (by omega)]

/-! ## All that is accepted -/

/-- What is accepted among the `n` candidates from `k` on. -/
def hits (candidate : Nat → Option α) (k n : Nat) : List α := (List.range' k n).filterMap candidate

variable {found : Nat → Option α} {n : Nat} {ts : List α}

theorem mem_hits : t ∈ hits found k n ↔ ∃ i, k ≤ i ∧ i < k + n ∧ found i = some t := by
  rw [hits, List.mem_filterMap]
  constructor
  · rintro ⟨i, hi, ht⟩
    obtain ⟨hle, hlt⟩ := List.mem_range'_1.mp hi
    exact ⟨i, hle, hlt, ht⟩
  · rintro ⟨i, hle, hlt, ht⟩
    exact ⟨i, List.mem_range'_1.mpr ⟨hle, hlt⟩, ht⟩

theorem hits_eq_nil (h : hits found k n = []) {i : Nat} (hi : k ≤ i) (hi' : i < k + n) :
    found i = none := by
  cases hfound : found i with
  | none => rfl
  | some t =>
      have : t ∈ hits found k n := mem_hits.mpr ⟨i, hi, hi', hfound⟩
      rw [h] at this
      cases this

/-- The first that is accepted, and those behind it. -/
theorem hits_of_first (hj : k ≤ j) (hj' : j < k + n) (hhit : found j = some t)
    (hnone : ∀ i, k ≤ i → i < j → found i = none) :
    hits found k n = t :: hits found (j + 1) (k + n - (j + 1)) := by
  induction n generalizing k with
  | zero => omega
  | succ n ih =>
      rcases Nat.lt_or_ge k j with hlt | hge
      · have hih := ih (k := k + 1) hlt (by omega) fun i hi hi' => hnone i (by omega) hi'
        rw [hits, List.range'_succ, List.filterMap_cons, hnone k le_rfl hlt]
        show hits found (k + 1) n = _
        rw [hih, show k + 1 + n = k + (n + 1) by omega]
      · obtain rfl : j = k := by omega
        rw [hits, List.range'_succ, List.filterMap_cons, hhit,
          show j + (n + 1) - (j + 1) = n by omega]
        rfl

theorem hits_eq_cons (h : hits found k n = t :: ts) :
    ∃ j, k ≤ j ∧ j < k + n ∧ found j = some t ∧ (∀ i, k ≤ i → i < j → found i = none) ∧
      ts = hits found (j + 1) (k + n - (j + 1)) := by
  induction n generalizing k with
  | zero => cases h
  | succ n ih =>
      rw [hits, List.range'_succ, List.filterMap_cons] at h
      split at h
      · rename_i hnone
        obtain ⟨j, hj, hj', hfound, hfirst, hts⟩ := ih h
        refine ⟨j, by omega, by omega, hfound, fun i hi hi' => ?_, ?_⟩
        · rcases Nat.lt_or_ge k i with hlt | hge
          · exact hfirst i hlt hi'
          · obtain rfl : i = k := by omega
            exact hnone
        · rw [hts]
          congr 1
          omega
      · rename_i u hu
        obtain ⟨rfl, rfl⟩ := List.cons.inj h
        refine ⟨k, le_rfl, by omega, hu, fun i hi hi' => by omega, ?_⟩
        rw [hits]
        congr 2
        omega

end

end Kaede
