import Mathlib.Data.List.Perm.Basic
import Mathlib.Data.List.Range
import Mathlib.Data.List.Nodup

/-!
# Rows that keep their place in a list

A table stores an ordered list by giving each row its index: the ranks of
`n` rows are `0, …, n - 1` in some order (`InRanks`). A change reads the
rows in order, edits the list and renumbers it (`renumber`), which
touches only the rows that stand elsewhere and stamps those.

Several lists can share one table, told apart by a key column: `group`
reads one of them, and `replaceGroup` puts a new list in its place.
-/

namespace Kaede

/-- A column the rewritten rows keep. -/
theorem map_map_column {α β : Type*} {rows : List α} {f : α → α} {col : α → β}
    (h : ∀ x ∈ rows, col (f x) = col x) : (rows.map f).map col = rows.map col := by
  rw [List.map_map]
  exact List.map_congr_left h

/-- A row with a rank and the time of its last change. -/
class Ranked (α : Type*) where
  rank : α → Nat
  stamp : α → Int
  place : α → Nat → Int → α
  rank_place : ∀ x n v, rank (place x n v) = n
  stamp_place : ∀ x n v, stamp (place x n v) = v

section

variable {α β : Type*} [Ranked α] {rows items : List α} {x y : α} {n : Nat} {v : Int}

open Ranked

/-- The rows of one list: their ranks are the indices of the list. -/
def InRanks (rows : List α) : Prop := List.Perm (rows.map rank) (List.range rows.length)

instance : Decidable (InRanks rows) := inferInstanceAs (Decidable (List.Perm _ _))

def renumberFrom (v : Int) : Nat → List α → List α
  | _, [] => []
  | n, x :: rest => (if rank x = n then x else place x n v) :: renumberFrom v (n + 1) rest

/-- Give every row its index, and the stamp `v` to those that move. -/
def renumber (v : Int) (items : List α) : List α := renumberFrom v 0 items

theorem map_rank_renumberFrom :
    (renumberFrom v n items).map rank = List.range' n items.length := by
  induction items generalizing n with
  | nil => rfl
  | cons x rest ih =>
      rw [renumberFrom, List.map_cons, ih, List.length_cons, List.range'_succ]
      congr 1
      split
      · assumption
      · exact rank_place x n v

/-- What renumbering does not write, it keeps. -/
theorem map_renumber {f : α → β} (hf : ∀ x n v, f (place x n v) = f x) :
    (renumber v items).map f = items.map f := by
  suffices h : ∀ n, (renumberFrom v n items).map f = items.map f from h 0
  induction items with
  | nil => exact fun _ => rfl
  | cons x rest ih =>
      intro n
      rw [renumberFrom, List.map_cons, ih, List.map_cons]
      split
      · rfl
      · rw [hf]

theorem length_renumber : (renumber v items).length = items.length := by
  have h : ((renumberFrom v 0 items).map rank).length = (List.range' 0 items.length).length :=
    congrArg List.length map_rank_renumberFrom
  simpa [renumber] using h

theorem inRanks_renumber : InRanks (renumber v items) := by
  rw [InRanks, length_renumber, renumber, map_rank_renumberFrom, List.range_eq_range']

/-- A renumbered row is one of the list, as it was or put elsewhere. -/
theorem mem_renumber (hy : y ∈ renumber v items) :
    ∃ x ∈ items, y = x ∨ ∃ n, y = place x n v := by
  suffices h : ∀ n, y ∈ renumberFrom v n items → ∃ x ∈ items, y = x ∨ ∃ n, y = place x n v from
    h 0 hy
  clear hy
  induction items with
  | nil => exact fun _ hy => absurd hy List.not_mem_nil
  | cons x rest ih =>
      intro n hy
      rcases List.mem_cons.mp hy with rfl | hy
      · refine ⟨x, List.mem_cons_self, ?_⟩
        split
        · exact .inl rfl
        · exact .inr ⟨n, rfl⟩
      · obtain ⟨z, hz, hyz⟩ := ih (n + 1) hy
        exact ⟨z, List.mem_cons_of_mem x hz, hyz⟩

/-- What holds of every row and survives a move holds after renumbering. -/
theorem forall_mem_renumber {P : α → Prop} (hitems : ∀ x ∈ items, P x)
    (hplace : ∀ x ∈ items, ∀ n, P (place x n v)) : ∀ y ∈ renumber v items, P y := by
  intro y hy
  obtain ⟨x, hx, rfl | ⟨n, rfl⟩⟩ := mem_renumber hy
  · exact hitems y hx
  · exact hplace x hx n

/-- Only the ranks matter, so rows may change otherwise. -/
theorem InRanks.map {f : α → α} (h : InRanks rows) (hf : ∀ x ∈ rows, rank (f x) = rank x) :
    InRanks (rows.map f) := by
  rw [InRanks, map_map_column hf, List.length_map]
  exact h

end

/-! ## Several lists in one table -/

section

open scoped List

variable {α β κ : Type*} [DecidableEq κ] {key : α → κ} {k j : κ} {rows new : List α} {x : α}

/-- The rows of the list `k`. -/
def group (key : α → κ) (k : κ) (rows : List α) : List α := rows.filter fun x => key x = k

/-- Put `new` in the place of the list `k`. -/
def replaceGroup (key : α → κ) (k : κ) (new rows : List α) : List α :=
  rows.filter (fun x => key x ≠ k) ++ new

theorem mem_group : x ∈ group key k rows ↔ x ∈ rows ∧ key x = k := by
  simp [group]

theorem mem_replaceGroup :
    x ∈ replaceGroup key k new rows ↔ (x ∈ rows ∧ key x ≠ k) ∨ x ∈ new := by
  simp [replaceGroup]

theorem group_replaceGroup_self (hnew : ∀ x ∈ new, key x = k) :
    group key k (replaceGroup key k new rows) = new := by
  have hold : (rows.filter fun x => key x ≠ k).filter (fun x => key x = k) = [] := by
    simp [List.filter_filter]
  have hall : new.filter (fun x => key x = k) = new :=
    List.filter_eq_self.mpr fun x hx => decide_eq_true (hnew x hx)
  rw [group, replaceGroup, List.filter_append, hold, hall, List.nil_append]

theorem group_replaceGroup_ne (hnew : ∀ x ∈ new, key x = k) (hj : j ≠ k) :
    group key j (replaceGroup key k new rows) = group key j rows := by
  have hold : (rows.filter fun x => key x ≠ k).filter (fun x => key x = j)
      = rows.filter fun x => key x = j := by
    rw [List.filter_filter]
    refine List.filter_congr fun x _ => ?_
    by_cases hx : key x = j
    · simp [hx, hj]
    · simp [hx]
  have hnone : new.filter (fun x => key x = j) = [] := by
    refine List.filter_eq_nil_iff.mpr fun x hx => ?_
    rw [decide_eq_true_eq, hnew x hx]
    exact Ne.symm hj
  rw [group, replaceGroup, List.filter_append, hold, hnone, List.append_nil, group]

theorem group_map {f : α → α} (hf : ∀ x ∈ rows, key (f x) = key x) :
    group key k (rows.map f) = (group key k rows).map f := by
  rw [group, List.filter_map, group]
  congr 1
  refine List.filter_congr fun x hx => ?_
  simp only [Function.comp_apply, hf x hx]

/-- One row taken out of a table with distinct keys. -/
theorem cons_filter_key_ne {rows : List α} (hnodup : (rows.map key).Nodup) (hx : x ∈ rows) :
    (x :: rows.filter fun y => key y ≠ key x) ~ rows := by
  induction rows with
  | nil => exact absurd hx List.not_mem_nil
  | cons a rest ih =>
      rw [List.map_cons, List.nodup_cons] at hnodup
      rcases List.mem_cons.mp hx with rfl | hx
      · have hkeep : rest.filter (fun y => key y ≠ key x) = rest := by
          refine List.filter_eq_self.mpr fun y hy => decide_eq_true ?_
          intro he
          exact hnodup.1 (he ▸ List.mem_map_of_mem hy)
        rw [List.filter_cons_of_neg (by simp), hkeep]
      · have hne : key a ≠ key x := by
          intro he
          exact hnodup.1 (he ▸ List.mem_map_of_mem hx)
        rw [List.filter_cons_of_pos (by simpa using hne)]
        exact (List.Perm.swap a x _).trans ((ih hnodup.2 hx).cons a)

/-- The list `k` goes out and `new` comes in. -/
theorem replaceGroup_append_group :
    (replaceGroup key k new rows ++ group key k rows) ~ (rows ++ new) := by
  have hsplit : (rows.filter (fun x => key x = k) ++ rows.filter fun x => key x ≠ k) ~ rows := by
    simpa using List.filter_append_perm (fun x => decide (key x = k)) rows
  have hswap : (replaceGroup key k new rows ++ group key k rows) ~
      (group key k rows ++ replaceGroup key k new rows) := List.perm_append_comm
  refine hswap.trans ?_
  rw [replaceGroup, group, ← List.append_assoc]
  exact hsplit.append_right new

/-- A column of the table after a list was replaced: `gone` and `come` are
what the two lists do not share. -/
theorem map_replaceGroup_perm {f : α → β} {gone come : List β}
    (h : (gone ++ new.map f) ~ (come ++ (group key k rows).map f)) :
    (gone ++ (replaceGroup key k new rows).map f) ~ (come ++ rows.map f) := by
  have hwhole : ((replaceGroup key k new rows).map f ++ (group key k rows).map f) ~
      (rows.map f ++ new.map f) := by
    rw [← List.map_append, ← List.map_append]
    exact replaceGroup_append_group.map f
  refine (List.perm_append_right_iff ((group key k rows).map f)).mp ?_
  calc gone ++ (replaceGroup key k new rows).map f ++ (group key k rows).map f
      ~ gone ++ (rows.map f ++ new.map f) := by
        rw [List.append_assoc]
        exact hwhole.append_left gone
    _ ~ gone ++ (new.map f ++ rows.map f) := List.perm_append_comm.append_left gone
    _ ~ come ++ (group key k rows).map f ++ rows.map f := by
        rw [← List.append_assoc]
        exact h.append_right _
    _ ~ come ++ rows.map f ++ (group key k rows).map f := by
        rw [List.append_assoc, List.append_assoc]
        exact List.perm_append_comm.append_left come

end

end Kaede
