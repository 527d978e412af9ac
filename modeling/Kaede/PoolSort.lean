import Mathlib.Data.List.Sort

/-!
# Sorting within a pool

`List.insertionSort` needs its comparison to be an order on the members of
the list only. The lemmas here ask for the order laws on a predicate that
holds of the members, so that a comparison which is no order of the whole
type still sorts the lists it is used on.

`insertionSort_eq_of_perm` is the main one: where the comparison is an
order, the result depends on which members the list has and not on how
they come. `insertionSort_pair` goes back, from two elements.
-/

namespace Kaede

namespace PoolSort

variable {α : Type*} {r : α → α → Prop} [DecidableRel r]

theorem pairwise_orderedInsert_of_mem {a : α} {l : List α} (hsort : l.Pairwise r)
    (htotal : ∀ b ∈ l, r a b ∨ r b a) (htrans : ∀ b ∈ l, ∀ c ∈ l, r a b → r b c → r a c) :
    (l.orderedInsert r a).Pairwise r := by
  induction l with
  | nil => exact List.pairwise_singleton _ _
  | cons b l ih =>
    obtain ⟨hb, hl⟩ := List.pairwise_cons.mp hsort
    by_cases hab : r a b
    · rw [List.orderedInsert_cons_of_le _ _ hab]
      refine List.pairwise_cons.mpr ⟨fun c hc => ?_, hsort⟩
      rcases List.mem_cons.mp hc with rfl | hc
      · exact hab
      · exact htrans b List.mem_cons_self c (List.mem_cons_of_mem _ hc) hab (hb c hc)
    · rw [List.orderedInsert_of_not_le _ _ hab]
      refine List.pairwise_cons.mpr ⟨fun c hc => ?_, ih hl ?_ ?_⟩
      · rcases (List.mem_orderedInsert r).mp hc with rfl | hc
        · exact (htotal b List.mem_cons_self).resolve_left hab
        · exact hb c hc
      · exact fun c hc => htotal c (List.mem_cons_of_mem _ hc)
      · exact fun c hc d hd => htrans c (List.mem_cons_of_mem _ hc) d (List.mem_cons_of_mem _ hd)

variable {p : α → Prop}

theorem pairwise_insertionSort_of_mem (htotal : ∀ a b, p a → p b → r a b ∨ r b a)
    (htrans : ∀ a b c, p a → p b → p c → r a b → r b c → r a c) {l : List α}
    (hl : ∀ a ∈ l, p a) : (l.insertionSort r).Pairwise r := by
  induction l with
  | nil => exact List.Pairwise.nil
  | cons a l ih =>
    have ha := hl a List.mem_cons_self
    have hmem : ∀ b ∈ l.insertionSort r, p b := fun b hb =>
      hl b (List.mem_cons_of_mem _ ((List.mem_insertionSort r).mp hb))
    refine pairwise_orderedInsert_of_mem (ih fun b hb => hl b (List.mem_cons_of_mem _ hb)) ?_ ?_
    · exact fun b hb => htotal a b ha (hmem b hb)
    · exact fun b hb c hc => htrans a b c ha (hmem b hb) (hmem c hc)

theorem insertionSort_eq_of_perm (htotal : ∀ a b, p a → p b → r a b ∨ r b a)
    (htrans : ∀ a b c, p a → p b → p c → r a b → r b c → r a c)
    (hantisymm : ∀ a b, p a → p b → r a b → r b a → a = b) {l l' : List α}
    (hl : ∀ a ∈ l, p a) (hperm : l'.Perm l) : l'.insertionSort r = l.insertionSort r := by
  have hl' : ∀ a ∈ l', p a := fun a ha => hl a (hperm.mem_iff.mp ha)
  refine List.Perm.eq_of_pairwise ?_ (pairwise_insertionSort_of_mem htotal htrans hl')
    (pairwise_insertionSort_of_mem htotal htrans hl) ?_
  · exact fun a b ha hb => hantisymm a b (hl' a ((List.mem_insertionSort r).mp ha))
      (hl b ((List.mem_insertionSort r).mp hb))
  · exact (List.perm_insertionSort r l').trans (hperm.trans (List.perm_insertionSort r l).symm)

theorem insertionSort_pair {a b : α} (h : [a, b].insertionSort r = [b, a].insertionSort r) :
    a = b ∨ (r a b ↔ ¬ r b a) := by
  simp only [List.insertionSort_cons, List.insertionSort_nil, List.orderedInsert_nil,
    List.orderedInsert_cons] at h
  by_cases hab : r a b <;> by_cases hba : r b a
  · rw [if_pos hab, if_pos hba] at h
    exact .inl (List.cons.inj h).1
  · exact .inr ⟨fun _ => hba, fun _ => hab⟩
  · exact .inr ⟨fun h => absurd h hab, fun h => absurd hba h⟩
  · rw [if_neg hab, if_neg hba] at h
    exact .inl (List.cons.inj h).1.symm

end PoolSort

end Kaede
