import Mathlib.Data.Finset.Sort
import Mathlib.Data.List.Nodup
import Mathlib.Order.Basic

/-!
# Reading sorted rows page by page

Rows have distinct keys in a linear order. A query sorts the rows past a
cursor and takes the first of them; the key of the last row that was taken is
the next cursor. What a cursor leaves is then a suffix of the sorted rows, and
the pages put together are the whole.

Keys that come newest first are a finite set in descending order. A page is cut
from some of them, and the last section says when it begins all of them.
-/

namespace Kaede

namespace Paging

variable {α κ : Type*} [LinearOrder κ] (key : α → κ)

def sortedBy (rows : List α) : List α := rows.mergeSort fun a b => key a ≤ key b

/-- The rows past a cursor, in order. -/
def after (rows : List α) (cursor : Option κ) : List α :=
  sortedBy key (rows.filter fun a => ∀ c ∈ cursor, c < key a)

variable {key} {rows : List α}

theorem perm_sortedBy : (sortedBy key rows).Perm rows := List.mergeSort_perm _ _

theorem mem_sortedBy {a : α} : a ∈ sortedBy key rows ↔ a ∈ rows := perm_sortedBy.mem_iff

theorem pairwise_le_sortedBy : (sortedBy key rows).Pairwise (key · ≤ key ·) := by
  have htrans : ∀ a b c : α, decide (key a ≤ key b) → decide (key b ≤ key c) →
      decide (key a ≤ key c) := by
    intro a b c hab hbc
    exact decide_eq_true (le_trans (of_decide_eq_true hab) (of_decide_eq_true hbc))
  have htotal : ∀ a b : α, decide (key a ≤ key b) || decide (key b ≤ key a) := by
    intro a b
    simpa using le_total (key a) (key b)
  exact (List.pairwise_mergeSort htrans htotal rows).imp of_decide_eq_true

/-- Distinct keys are in strict order. -/
theorem pairwise_sortedBy (h : (rows.map key).Nodup) :
    (sortedBy key rows).Pairwise (key · < key ·) := by
  have hne : (sortedBy key rows).Pairwise (key · ≠ key ·) :=
    List.pairwise_map.mp ((perm_sortedBy.map key).nodup_iff.mpr h)
  refine (pairwise_le_sortedBy.and hne).imp ?_
  rintro a b ⟨hle, hne⟩
  exact lt_of_le_of_ne hle hne

/-- Sorted lists of the same rows are the same. -/
theorem eq_of_pairwise {l l' : List α} (hp : l.Perm l') (h : l.Pairwise (key · < key ·))
    (h' : l'.Pairwise (key · < key ·)) : l = l' := by
  refine List.Perm.eq_of_pairwise ?_ h h' hp
  intro a b _ _ hab hba
  exact absurd hab hba.asymm

theorem sortedBy_filter (h : (rows.map key).Nodup) (p : α → Bool) :
    sortedBy key (rows.filter p) = (sortedBy key rows).filter p := by
  have hsub : ((rows.filter p).map key).Nodup := h.sublist (List.filter_sublist.map key)
  exact eq_of_pairwise (perm_sortedBy.trans (perm_sortedBy.filter p).symm)
    (pairwise_sortedBy hsub) ((pairwise_sortedBy h).filter p)

/-- Past the last of a prefix is the rest. -/
theorem filter_past {l₁ l₂ : List α} {x : α} (h : (l₁ ++ l₂).Pairwise (key · < key ·))
    (hx : l₁.getLast? = some x) : (l₁ ++ l₂).filter (fun a => key x < key a) = l₂ := by
  obtain ⟨h₁, -, h₁₂⟩ := List.pairwise_append.mp h
  have hmem : x ∈ l₁ := List.mem_of_getLast? hx
  have hpre : l₁.filter (fun a => key x < key a) = [] := by
    refine List.filter_eq_nil_iff.mpr fun a ha => ?_
    obtain ⟨ys, rfl⟩ := List.getLast?_eq_some_iff.mp hx
    rcases List.mem_append.mp ha with ha | ha
    · have := (List.pairwise_append.mp h₁).2.2 a ha x List.mem_cons_self
      simpa using this.le
    · simp [List.mem_singleton.mp ha]
  have hsuf : l₂.filter (fun a => key x < key a) = l₂ :=
    List.filter_eq_self.mpr fun a ha => by simpa using h₁₂ x hmem a ha
  rw [List.filter_append, hpre, hsuf, List.nil_append]

theorem after_none : after key rows none = sortedBy key rows := by
  simp [after]

theorem mem_after {cursor : Option κ} {a : α} :
    a ∈ after key rows cursor ↔ a ∈ rows ∧ ∀ c ∈ cursor, c < key a := by
  rw [after, mem_sortedBy, List.mem_filter, decide_eq_true_iff]

theorem pairwise_after (h : (rows.map key).Nodup) (cursor : Option κ) :
    (after key rows cursor).Pairwise (key · < key ·) :=
  pairwise_sortedBy (h.sublist (List.filter_sublist.map key))

/-- After a prefix of what a cursor left comes the rest. -/
theorem after_getLast_after {l₁ l₂ : List α} {x : α} {cursor : Option κ}
    (h : (rows.map key).Nodup) (hl : after key rows cursor = l₁ ++ l₂)
    (hx : l₁.getLast? = some x) : after key rows (some (key x)) = l₂ := by
  have hmem : x ∈ after key rows cursor := by
    rw [hl]
    exact List.mem_append_left _ (List.mem_of_getLast? hx)
  have hpast : (rows.filter fun a => ∀ c ∈ some (key x), c < key a) =
      (rows.filter fun a => ∀ c ∈ cursor, c < key a).filter fun a => key x < key a := by
    rw [List.filter_filter]
    refine List.filter_congr fun a _ => ?_
    rw [← Bool.decide_and, decide_eq_decide]
    constructor
    · intro ha
      exact ⟨ha _ rfl, fun c hc => ((mem_after.mp hmem).2 c hc).trans (ha _ rfl)⟩
    · rintro ⟨ha, -⟩ c hc
      obtain rfl : key x = c := Option.some.inj hc
      exact ha
  have hsub : ((rows.filter fun a => ∀ c ∈ cursor, c < key a).map key).Nodup :=
    h.sublist (List.filter_sublist.map key)
  have hsorted := pairwise_after h cursor
  rw [hl] at hsorted
  rw [after, hpast, sortedBy_filter hsub, ← after, hl]
  exact filter_past hsorted hx

/-- After a prefix that was read comes the rest. -/
theorem after_getLast {l₁ l₂ : List α} {x : α} (h : (rows.map key).Nodup)
    (hl : sortedBy key rows = l₁ ++ l₂) (hx : l₁.getLast? = some x) :
    after key rows (some (key x)) = l₂ :=
  after_getLast_after h (after_none.trans hl) hx

/-- What belongs to one of two disjoint parts is what belongs to the first and
what belongs to the second. -/
theorem filter_or_perm {β : Type*} {p q : β → Bool} (h : ∀ b, p b → q b = false) (l : List β) :
    (l.filter p ++ l.filter q).Perm (l.filter fun b => p b || q b) := by
  induction l with
  | nil => exact .refl _
  | cons b l ih =>
      cases hp : p b with
      | true => simpa [List.filter_cons, hp, h b hp] using ih
      | false =>
          cases hq : q b with
          | true => simpa [List.filter_cons, hp, hq] using List.perm_middle.trans (ih.cons b)
          | false => simpa [List.filter_cons, hp, hq] using ih

/-! ## Newest first -/

section

variable {s u : Finset κ}

/-- The keys of a set, the largest first. -/
def descending (s : Finset κ) : List κ := s.sort (· ≥ ·)

theorem mem_descending {a : κ} : a ∈ descending s ↔ a ∈ s := Finset.mem_sort _

theorem pairwise_descending : (descending s).Pairwise (· > ·) :=
  (Finset.sortedGT_sort s).pairwise

theorem descending_toFinset {l : List κ} (h : l.Pairwise (· > ·)) : descending l.toFinset = l :=
  (List.toFinset_sort _ (h.imp ne_of_gt)).mpr (h.imp le_of_lt)

theorem descending_eq {l : List κ} (h : l.Pairwise (· > ·)) (hmem : ∀ a, a ∈ l ↔ a ∈ s) :
    descending s = l := by
  have : s = l.toFinset := by
    ext a
    rw [List.mem_toFinset, hmem]
  rw [this, descending_toFinset h]

theorem descending_filter (p : κ → Prop) [DecidablePred p] :
    descending (s.filter p) = (descending s).filter p := by
  refine descending_eq (pairwise_descending.filter _) fun a => ?_
  rw [List.mem_filter, mem_descending, Finset.mem_filter, decide_eq_true_iff]

theorem descending_of_subset (h : s ⊆ u) : descending s = (descending u).filter (· ∈ s) := by
  refine descending_eq (pairwise_descending.filter _) fun a => ?_
  rw [List.mem_filter, mem_descending, decide_eq_true_iff, and_iff_right_of_imp (h ·)]

/-- Below the last of a prefix is the rest. -/
theorem descending_below {l₁ l₂ : List κ} {x : κ} (h : descending u = l₁ ++ l₂)
    (hx : l₁.getLast? = some x) : descending (u.filter (· < x)) = l₂ := by
  have hsorted : (l₁ ++ l₂).Pairwise (OrderDual.toDual · < OrderDual.toDual ·) := by
    rw [← h]
    exact pairwise_descending
  rw [descending_filter, h]
  exact filter_past hsorted hx

/-- The page that leaves a key out is full of larger ones. -/
theorem lt_of_notMem_take {a : κ} {n : Nat} (ha : a ∈ u) (hn : a ∉ (descending u).take n) :
    n = ((descending u).take n).length ∧ ∀ y ∈ (descending u).take n, a < y := by
  have hsplit := List.take_append_drop n (descending u)
  have hdrop : a ∈ (descending u).drop n := by
    have hmem := mem_descending.mpr ha
    rw [← hsplit] at hmem
    exact (List.mem_append.mp hmem).resolve_left hn
  have hsorted : (descending u).Pairwise (· > ·) := pairwise_descending
  rw [← hsplit] at hsorted
  refine ⟨?_, fun y hy => (List.pairwise_append.mp hsorted).2.2 y hy a hdrop⟩
  have hpos := List.length_pos_of_mem hdrop
  rw [List.length_drop] at hpos
  rw [List.length_take]
  omega

/-- Fewer keys than a page has are larger than one of the page. -/
theorem card_lt_of_mem_take {a : κ} {n : Nat} (ha : a ∈ (descending u).take n) :
    (u.filter (a < ·)).card < n := by
  obtain ⟨l₁, l₂, hpage⟩ := List.append_of_mem ha
  have hsplit := List.take_append_drop n (descending u)
  have hsorted : (descending u).Pairwise (· > ·) := pairwise_descending
  rw [← hsplit, hpage, List.append_assoc] at hsorted
  obtain ⟨-, hafter, -⟩ := List.pairwise_append.mp hsorted
  have hrest := (List.pairwise_cons.mp hafter).1
  have habove : u.filter (a < ·) ⊆ l₁.toFinset := by
    intro y hy
    obtain ⟨hmem, hlt⟩ := Finset.mem_filter.mp hy
    rw [← mem_descending, ← hsplit, hpage, List.append_assoc] at hmem
    rcases List.mem_append.mp hmem with hmem | hmem
    · exact List.mem_toFinset.mpr hmem
    · rcases List.mem_cons.mp hmem with rfl | hmem
      · exact absurd hlt (lt_irrefl _)
      · exact absurd hlt (hrest y hmem).asymm
  have hlength := congrArg List.length hpage
  rw [List.length_append, List.length_cons, List.length_take] at hlength
  calc (u.filter (a < ·)).card ≤ l₁.toFinset.card := Finset.card_le_card habove
    _ ≤ l₁.length := List.toFinset_card_le _
    _ < n := by omega

/-- The first of some elements of a descending list begin the list if an
element left out comes after all of them or after as many as are taken. -/
theorem take_filter_prefix_iff {l : List κ} (h : l.Pairwise (· > ·)) (p : κ → Bool) (n : Nat) :
    (l.filter p).take n <+: l ↔
      ∀ a ∈ l, p a = false →
        n ≤ ((l.filter p).filter (a < ·)).length ∨ ∀ y ∈ l, p y → a < y := by
  induction l generalizing n with
  | nil => simp
  | cons x l ih =>
      obtain ⟨hx, hl⟩ := List.pairwise_cons.mp h
      cases hp : p x with
      | true =>
          cases n with
          | zero => simp
          | succ n =>
              have hcount (a : κ) (ha : a ∈ l) : (((x :: l).filter p).filter (a < ·)).length =
                  ((l.filter p).filter (a < ·)).length + 1 := by
                rw [List.filter_cons_of_pos hp, List.filter_cons_of_pos (by simpa using hx a ha),
                  List.length_cons]
              rw [List.filter_cons_of_pos hp, List.take_succ_cons, List.prefix_cons_inj, ih hl n]
              constructor
              · intro hall a hmem hpa
                rcases List.mem_cons.mp hmem with rfl | ha
                · exact absurd (hp.symm.trans hpa) (by simp)
                rw [← List.filter_cons_of_pos hp, hcount a ha, Nat.succ_le_succ_iff]
                refine (hall a ha hpa).imp_right fun hy y hmem hpy => ?_
                rcases List.mem_cons.mp hmem with rfl | hmem
                · exact hx a ha
                · exact hy y hmem hpy
              · intro hall a ha hpa
                have := hall a (List.mem_cons_of_mem _ ha) hpa
                rw [← List.filter_cons_of_pos hp, hcount a ha, Nat.succ_le_succ_iff] at this
                exact this.imp_right fun hy y hmem => hy y (List.mem_cons_of_mem _ hmem)
      | false =>
          rw [List.filter_cons_of_neg (by simp [hp])]
          have hnone : (l.filter p).filter (x < ·) = [] := by
            refine List.filter_eq_nil_iff.mpr fun y hy => ?_
            simpa using (hx y (List.mem_of_mem_filter hy)).le
          constructor
          · intro hpre a ha hpa
            cases n with
            | zero => exact .inl (Nat.zero_le _)
            | succ n =>
                cases hf : l.filter p with
                | nil =>
                    refine .inr fun y hy hpy => ?_
                    rcases List.mem_cons.mp hy with rfl | hy
                    · exact absurd (hp.symm.trans hpy) (by simp)
                    · have := List.mem_filter.mpr ⟨hy, hpy⟩
                      rw [hf] at this
                      exact absurd this (by simp)
                | cons y ys =>
                    rw [hf, List.take_succ_cons] at hpre
                    obtain ⟨rest, hrest⟩ := hpre
                    obtain rfl : y = x := (List.cons.inj hrest).1
                    have hmem : y ∈ l.filter p := by
                      rw [hf]
                      exact List.mem_cons_self
                    exact absurd (hx y (List.mem_of_mem_filter hmem)) (lt_irrefl y)
          · intro hall
            have hx' := hall x List.mem_cons_self hp
            rw [hnone, List.length_nil] at hx'
            rcases hx' with hn | hy
            · simp [Nat.le_zero.mp hn]
            · have hf : l.filter p = [] := by
                refine List.filter_eq_nil_iff.mpr fun y hmem hpy => ?_
                exact (hx y hmem).asymm (hy y (List.mem_cons_of_mem _ hmem) hpy)
              simp [hf]

/-- When a page of some keys begins all of them. -/
theorem take_descending_prefix_iff (h : s ⊆ u) (n : Nat) :
    (descending s).take n <+: descending u ↔
      ∀ a ∈ u, a ∉ s → n ≤ (s.filter (a < ·)).card ∨ ∀ y ∈ s, a < y := by
  have hcount (a : κ) :
      ((descending s).filter (a < ·)).length = (s.filter (a < ·)).card := by
    rw [← descending_filter]
    exact Finset.length_sort _
  rw [descending_of_subset h, take_filter_prefix_iff pairwise_descending, ← descending_of_subset h]
  simp only [hcount, mem_descending, decide_eq_false_iff_not, decide_eq_true_iff]
  refine forall₂_congr fun a ha => imp_congr_right fun hs => or_congr_right ?_
  exact ⟨fun hy y hmem => hy y (h hmem) hmem, fun hy y _ hmem => hy y hmem⟩

end

end Paging

end Kaede
