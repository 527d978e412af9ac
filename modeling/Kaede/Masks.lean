import Kaede.Permissions

/-!
# Masks as sets of bits

A mask stands for the set of its bits and `Sub` is inclusion. A `Rule`
takes bits off a mask that lacks what they need; a mask is closed under the
rule when nothing is left to take off. A rule that is broken stays so in a
smaller mask, hence firing it loses no closed part of the mask
(`Rule.sub_fire`), in whatever order rules are fired (`Rule.sub_foldl`).
-/

namespace Kaede

namespace Mask

variable {a b c d s p : Nat}

/-- Every bit of `a` is one of `b`. -/
def Sub (a b : Nat) : Prop := ∀ i, a.testBit i = true → b.testBit i = true

theorem Sub.refl (a : Nat) : Sub a a := fun _ h => h

theorem Sub.trans (h : Sub a b) (h' : Sub b c) : Sub a c := fun i hi => h' i (h i hi)

theorem Sub.antisymm (h : Sub a b) (h' : Sub b a) : a = b := by
  refine Nat.eq_of_testBit_eq fun i => ?_
  rw [Bool.eq_iff_iff]
  exact ⟨h i, h' i⟩

theorem zero_sub (a : Nat) : Sub 0 a := by
  intro i hi
  rw [Nat.zero_testBit] at hi
  cases hi

@[simp] theorem testBit_andNot (a b i : Nat) :
    (andNot a b).testBit i = (a.testBit i && !b.testBit i) := by
  rw [andNot, Nat.testBit_xor, Nat.testBit_and]
  cases a.testBit i <;> cases b.testBit i <;> rfl

theorem andNot_sub (a b : Nat) : Sub (andNot a b) a := by
  intro i hi
  rw [testBit_andNot, Bool.and_eq_true] at hi
  exact hi.1

theorem and_sub_left (a b : Nat) : Sub (a &&& b) a := by
  intro i hi
  rw [Nat.testBit_and, Bool.and_eq_true] at hi
  exact hi.1

theorem and_sub_right (a b : Nat) : Sub (a &&& b) b := by
  intro i hi
  rw [Nat.testBit_and, Bool.and_eq_true] at hi
  exact hi.2

/-- Masks without a common bit. -/
theorem and_eq_zero_iff : a &&& b = 0 ↔ ∀ i, a.testBit i = true → b.testBit i = false := by
  constructor
  · intro h i hi
    have := congrArg (Nat.testBit · i) h
    simpa [hi] using this
  · intro h
    refine Nat.eq_of_testBit_eq fun i => ?_
    rw [Nat.testBit_and, Nat.zero_testBit, Bool.and_eq_false_iff]
    by_cases hi : a.testBit i = true
    · exact .inr (h i hi)
    · exact .inl (Bool.eq_false_iff.mpr hi)

theorem and_eq_right_iff : a &&& b = b ↔ Sub b a := by
  constructor
  · intro h i hi
    rw [← h, Nat.testBit_and, Bool.and_eq_true] at hi
    exact hi.1
  · intro h
    refine (and_sub_right a b).antisymm fun i hi => ?_
    rw [Nat.testBit_and, Bool.and_eq_true]
    exact ⟨h i hi, hi⟩

/-- A mask of one bit is in a mask or has nothing in common with it. -/
theorem sub_bit_iff {n : Nat} : Sub (1 <<< n) p ↔ p.testBit n = true := by
  rw [Nat.one_shiftLeft]
  constructor
  · intro h
    exact h n Nat.testBit_two_pow_self
  · intro h i hi
    rw [Nat.testBit_two_pow, decide_eq_true_iff] at hi
    exact hi ▸ h

theorem and_bit_eq_zero_iff {n : Nat} : p &&& 1 <<< n = 0 ↔ ¬Sub (1 <<< n) p := by
  rw [sub_bit_iff, and_eq_zero_iff, Nat.one_shiftLeft]
  constructor
  · intro h hn
    have := h n hn
    rw [Nat.testBit_two_pow_self] at this
    cases this
  · intro h i hi
    refine Nat.testBit_two_pow_of_ne ?_
    rintro rfl
    exact h hi

theorem Sub.and_eq_zero (h : Sub a b) (hb : b &&& c = 0) : a &&& c = 0 :=
  and_eq_zero_iff.mpr fun i hi => and_eq_zero_iff.mp hb i (h i hi)

theorem sub_andNot (h : Sub s p) (hs : s &&& d = 0) : Sub s (andNot p d) := by
  intro i hi
  rw [testBit_andNot, h i hi, and_eq_zero_iff.mp hs i hi]
  rfl

theorem andNot_and (p d : Nat) : andNot p d &&& d = 0 := by
  refine and_eq_zero_iff.mpr fun i hi => ?_
  rw [testBit_andNot, Bool.and_eq_true, Bool.not_eq_true'] at hi
  exact hi.2

theorem andNot_of_and_eq_zero (h : p &&& d = 0) : andNot p d = p :=
  (andNot_sub p d).antisymm (sub_andNot (.refl p) h)

/-! ## Rules -/

/-- The `bits` are taken off a mask in which the rule is broken. -/
structure Rule where
  bits : Nat
  broken : Nat → Bool
  /-- What a mask lacks its parts lack too. -/
  anti : ∀ s p, Sub s p → broken p = true → broken s = true

namespace Rule

variable {r : Rule} {rules : List Rule}

def Holds (r : Rule) (p : Nat) : Prop := r.broken p = true → p &&& r.bits = 0

def fire (r : Rule) (p : Nat) : Nat := if r.broken p then andNot p r.bits else p

theorem fire_sub (r : Rule) (p : Nat) : Sub (r.fire p) p := by
  unfold fire
  split
  · exact andNot_sub _ _
  · exact .refl p

theorem sub_fire (h : Sub s p) (hs : r.Holds s) : Sub s (r.fire p) := by
  unfold fire
  split
  · rename_i hbroken
    exact sub_andNot h (hs (r.anti s p h hbroken))
  · exact h

theorem foldl_sub (rules : List Rule) (p : Nat) : Sub (rules.foldl (fun p r => r.fire p) p) p := by
  induction rules generalizing p with
  | nil => exact .refl p
  | cons r rules ih => exact (ih (r.fire p)).trans (r.fire_sub p)

theorem sub_foldl (h : Sub s p) (hs : ∀ r ∈ rules, r.Holds s) :
    Sub s (rules.foldl (fun p r => r.fire p) p) := by
  induction rules generalizing p with
  | nil => exact h
  | cons r rules ih =>
      exact ih (sub_fire h (hs r List.mem_cons_self)) fun r' hr' =>
        hs r' (List.mem_cons_of_mem _ hr')

/-- A rule that is broken at first is broken when its turn comes. -/
theorem foldl_and_eq_zero (hr : r ∈ rules) (h : r.broken p = true) :
    rules.foldl (fun p r => r.fire p) p &&& r.bits = 0 := by
  induction rules generalizing p with
  | nil => cases hr
  | cons r' rules ih =>
      rw [List.foldl_cons]
      obtain rfl | hr := List.mem_cons.mp hr
      · refine (foldl_sub rules _).and_eq_zero ?_
        rw [fire, if_pos h]
        exact andNot_and p _
      · exact ih hr (r.anti _ p (r'.fire_sub p) h)

/-- The rule that takes `bits` off a mask without `needed`, where it applies. -/
def lacking (applies : Bool) (bits needed : Nat) : Rule where
  bits := bits
  broken p := applies && decide (p &&& needed = 0)
  anti s p h hp := by
    rw [Bool.and_eq_true, decide_eq_true_iff] at hp ⊢
    exact ⟨hp.1, h.and_eq_zero hp.2⟩

theorem lacking_holds_iff {applies : Bool} {bits needed : Nat} :
    (lacking applies bits needed).Holds p ↔
      (applies = true → p &&& needed = 0 → p &&& bits = 0) := by
  show (applies && decide (p &&& needed = 0)) = true → _ ↔ _
  rw [Bool.and_eq_true, decide_eq_true_iff, and_imp]
  rfl

/-- A rule that has nothing to take off is not broken, or was fired before. -/
theorem Holds.fire_eq (h : r.Holds p) : r.fire p = p := by
  unfold fire
  split
  · rename_i hbroken
    exact andNot_of_and_eq_zero (h hbroken)
  · rfl

end Rule

end Mask

end Kaede
