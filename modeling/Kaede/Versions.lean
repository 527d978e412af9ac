import Mathlib.Data.List.Basic

/-!
# Registers that keep the newest version

A replica that is sent stamped values in any order, some of them more than
once, keeps the one with the greatest version: `takeNewer` is its step, and
`IsNewest` what it holds after any number of them.
-/

namespace Kaede

/-- A value and its version. -/
@[ext]
structure Stamped (α : Type*) where
  version : Nat
  value : α
deriving DecidableEq, Repr

section

variable {α : Type*} {seen seen' : List (Stamped α)} {x y p : Stamped α}

def takeNewer (stored p : Stamped α) : Stamped α := if p.version < stored.version then stored else p

/-- Of the values seen, one with the greatest version. -/
structure IsNewest (seen : List (Stamped α)) (x : Stamped α) : Prop where
  mem : x ∈ seen
  le : ∀ p ∈ seen, p.version ≤ x.version

/-- A version names one value. -/
def OneValue (seen : List (Stamped α)) : Prop :=
  ∀ p ∈ seen, ∀ q ∈ seen, p.version = q.version → p = q

instance [DecidableEq α] (seen : List (Stamped α)) : Decidable (OneValue seen) :=
  inferInstanceAs (Decidable (∀ p ∈ seen, ∀ q ∈ seen, p.version = q.version → p = q))

theorem OneValue.subset (h : OneValue seen') (hsub : seen ⊆ seen') : OneValue seen :=
  fun p hp q hq => h p (hsub hp) q (hsub hq)

theorem isNewest_singleton : IsNewest [x] x :=
  ⟨List.mem_singleton_self x, fun _ hp => List.mem_singleton.mp hp ▸ Nat.le_refl _⟩

theorem IsNewest.takeNewer (h : IsNewest seen x) : IsNewest (seen ++ [p]) (takeNewer x p) := by
  unfold Kaede.takeNewer
  split
  · rename_i hlt
    refine ⟨List.mem_append_left _ h.mem, fun q hq => ?_⟩
    rcases List.mem_append.mp hq with hq | hq
    · exact h.le q hq
    · exact List.mem_singleton.mp hq ▸ Nat.le_of_lt hlt
  · rename_i hle
    refine ⟨List.mem_append_right _ (List.mem_singleton_self p), fun q hq => ?_⟩
    rcases List.mem_append.mp hq with hq | hq
    · exact Nat.le_trans (h.le q hq) (Nat.le_of_not_lt hle)
    · exact List.mem_singleton.mp hq ▸ Nat.le_refl _

/-- A value that repeats a version that is held is the value that is held. -/
theorem IsNewest.eq_of_version (hagree : OneValue (seen ++ [p])) (h : IsNewest seen x)
    (hversion : p.version = x.version) : p = x :=
  hagree p (List.mem_append_right _ (List.mem_singleton_self p)) x
    (List.mem_append_left _ h.mem) hversion

end

end Kaede
