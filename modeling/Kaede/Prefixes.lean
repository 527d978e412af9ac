import Mathlib.Data.List.Nodup

/-!
# Loops that stop at the first misfit

`keepWhile ok [] l` is the loop `for x in l: if not ok(kept, x): break;
kept.append(x)`. What it keeps is a prefix of `l`, and whether a given
element is kept depends only on the elements before it: `KeepsAll ok []`
of the list up to and including the element.
-/

namespace Kaede

section

variable {α : Type*} (ok : List α → α → Prop) [∀ kept x, Decidable (ok kept x)]

def keepWhile : List α → List α → List α
  | _, [] => []
  | kept, x :: xs => if ok kept x then x :: keepWhile (kept ++ [x]) xs else []

/-- The loop runs through. -/
def KeepsAll (kept l : List α) : Prop := keepWhile ok kept l = l

variable {ok} {kept l m front back : List α} {r x : α}

theorem keepWhile_isPrefix : keepWhile ok kept l <+: l := by
  induction l generalizing kept with
  | nil => exact List.prefix_refl _
  | cons x xs ih =>
      unfold keepWhile
      split
      · exact (List.prefix_cons_inj x).mpr ih
      · exact List.nil_prefix

theorem keepsAll_nil : KeepsAll ok kept [] := rfl

theorem keepsAll_cons : KeepsAll ok kept (x :: l) ↔ ok kept x ∧ KeepsAll ok (kept ++ [x]) l := by
  unfold KeepsAll
  rw [keepWhile]
  split
  · rename_i hok
    rw [List.cons.injEq]
    exact and_congr_left fun _ => iff_of_true rfl hok
  · rename_i hok
    exact iff_of_false nofun fun h => hok h.1

theorem keepWhile_append (h : KeepsAll ok kept l) :
    keepWhile ok kept (l ++ m) = l ++ keepWhile ok (kept ++ l) m := by
  induction l generalizing kept with
  | nil => simp
  | cons x xs ih =>
      obtain ⟨hok, hrest⟩ := keepsAll_cons.mp h
      rw [List.cons_append, keepWhile, if_pos hok, ih hrest, List.append_assoc,
        List.singleton_append, List.cons_append]

/-- If the loop reaches an element, it has kept everything before it. -/
theorem keepsAll_of_mem (hnew : r ∉ front)
    (hmem : r ∈ keepWhile ok kept (front ++ r :: back)) :
    KeepsAll ok kept (front ++ [r]) := by
  induction front generalizing kept with
  | nil =>
      rw [List.nil_append, keepWhile] at hmem
      split at hmem
      · rename_i hok
        exact keepsAll_cons.mpr ⟨hok, keepsAll_nil⟩
      · cases hmem
  | cons x xs ih =>
      obtain ⟨hne, hnew⟩ := List.ne_and_not_mem_of_not_mem_cons hnew
      rw [List.cons_append, keepWhile] at hmem
      split at hmem
      · rename_i hok
        have hmem := (List.mem_cons.mp hmem).resolve_left hne
        exact keepsAll_cons.mpr ⟨hok, ih hnew hmem⟩
      · cases hmem

/-- The loop goes on from an element with all before it kept. -/
theorem keepWhile_through (h : KeepsAll ok kept (front ++ [r])) :
    ∃ back', keepWhile ok kept (front ++ r :: back) = front ++ r :: back' := by
  refine ⟨keepWhile ok (kept ++ (front ++ [r])) back, ?_⟩
  rw [← List.singleton_append, ← List.append_assoc, keepWhile_append h]
  simp

theorem mem_keepWhile_iff (hnew : r ∉ front) :
    r ∈ keepWhile ok kept (front ++ r :: back) ↔ KeepsAll ok kept (front ++ [r]) := by
  refine ⟨keepsAll_of_mem hnew, fun h => ?_⟩
  have hthrough : ∃ back', keepWhile ok kept (front ++ r :: back) = front ++ r :: back' :=
    keepWhile_through h
  obtain ⟨back', hback⟩ := hthrough
  rw [hback]
  simp

/-- In a strictly sorted list the smaller elements stand before an element. -/
theorem exists_split_of_sorted {f : α → Nat} (hsorted : l.Pairwise fun a b => f a < f b)
    (hr : r ∈ l) : ∃ back, l = l.filter (fun a => f a < f r) ++ r :: back := by
  induction l with
  | nil => cases hr
  | cons x xs ih =>
      obtain ⟨hx, hxs⟩ := List.pairwise_cons.mp hsorted
      rcases List.mem_cons.mp hr with rfl | hr
      · refine ⟨xs, ?_⟩
        have hempty : (r :: xs).filter (fun a => f a < f r) = [] := by
          refine List.filter_eq_nil_iff.mpr fun a ha => ?_
          rcases List.mem_cons.mp ha with rfl | ha
          · simp
          · have := hx a ha
            simp only [decide_eq_true_eq]
            omega
        rw [hempty, List.nil_append]
      · obtain ⟨back, hback⟩ := ih hxs hr
        refine ⟨back, ?_⟩
        rw [List.filter_cons_of_pos (by simpa using hx r hr), List.cons_append, ← hback]

theorem take_through {n : Nat} (hlt : front.length < n) :
    ∃ back', (front ++ r :: back).take n = front ++ r :: back' := by
  obtain ⟨m, hm⟩ := Nat.exists_eq_succ_of_ne_zero (Nat.sub_ne_zero_of_lt hlt)
  rw [List.take_append, List.take_of_length_le (Nat.le_of_lt hlt), hm, List.take_succ_cons]
  exact ⟨_, rfl⟩

theorem length_lt_of_mem_take {n : Nat} (hnew : r ∉ front)
    (h : r ∈ (front ++ r :: back).take n) : front.length < n := by
  by_contra hle
  rw [List.take_append_of_le_length (Nat.le_of_not_lt hle)] at h
  exact hnew (List.mem_of_mem_take h)

/-! ## Common tests -/

theorem keepsAll_forall {p : α → Prop} [DecidablePred p] :
    KeepsAll (fun _ x => p x) kept l ↔ ∀ x ∈ l, p x := by
  induction l generalizing kept with
  | nil => simp [keepsAll_nil]
  | cons x xs ih => rw [keepsAll_cons, ih, List.forall_mem_cons]

theorem keepsAll_nodup {κ : Type*} [DecidableEq κ] {key : α → κ} (hkept : (kept.map key).Nodup) :
    KeepsAll (fun kept x => key x ∉ kept.map key) kept l ↔ ((kept ++ l).map key).Nodup := by
  induction l generalizing kept with
  | nil => simpa [keepsAll_nil] using hkept
  | cons x xs ih =>
      have hsplit : kept ++ x :: xs = (kept ++ [x]) ++ xs := by simp
      have hstep : ((kept ++ [x]).map key).Nodup ↔ key x ∉ kept.map key := by
        rw [List.map_append, List.map_singleton, List.nodup_append_comm, List.singleton_append,
          List.nodup_cons, and_iff_left hkept]
      rw [keepsAll_cons, hsplit]
      constructor
      · rintro ⟨hx, hrest⟩
        exact (ih (hstep.mpr hx)).mp hrest
      · intro h
        have hhead : ((kept ++ [x]).map key).Nodup := by
          rw [List.map_append] at h
          exact (List.nodup_append.mp h).1
        exact ⟨hstep.mp hhead, (ih hhead).mpr h⟩

/-- A bound on a measure that grows with the list. -/
theorem keepsAll_bound {measure : List α → Nat} {n : Nat}
    (hmono : ∀ l x, measure l ≤ measure (l ++ [x])) (hl : l ≠ []) :
    KeepsAll (fun kept x => measure (kept ++ [x]) ≤ n) kept l ↔ measure (kept ++ l) ≤ n := by
  induction l generalizing kept with
  | nil => exact absurd rfl hl
  | cons x xs ih =>
      rw [keepsAll_cons]
      cases xs with
      | nil => simp [keepsAll_nil]
      | cons y ys =>
          rw [ih (List.cons_ne_nil _ _), List.append_assoc, List.singleton_append]
          refine and_iff_right_of_imp fun h => Nat.le_trans ?_ h
          have hgrow (l m : List α) : measure l ≤ measure (l ++ m) := by
            induction m generalizing l with
            | nil => simp
            | cons z zs ihm =>
                have hz := ihm (l ++ [z])
                rw [List.append_assoc, List.singleton_append] at hz
                exact Nat.le_trans (hmono l z) hz
          have hz := hgrow (kept ++ [x]) (y :: ys)
          rwa [List.append_assoc, List.singleton_append] at hz

end

end Kaede
