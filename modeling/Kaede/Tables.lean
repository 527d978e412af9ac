import Mathlib.Data.List.AList

/-!
# Hash tables

A hash table is an association list with distinct keys. Lookup, insertion
and removal are Mathlib's; this file adds what a program does to a table
in place: change one value, change every value, list the values, insert or
remove a batch.

The lemmas say what each operation does to `lookup`, which is all a caller
can observe. The last section is about a table whose keys are also kept in
one bounded list for each class of values.
-/

namespace Kaede

abbrev Table (κ α : Type*) := AList fun _ : κ => α

namespace Table

variable {κ α : Type*} [DecidableEq κ] {t : Table κ α} {k j : κ} {a : α}

theorem lookup_insert_ite : (t.insert k a).lookup j = if j = k then some a else t.lookup j := by
  by_cases h : j = k
  · subst h
    rw [if_pos rfl, AList.lookup_insert]
  · rw [if_neg h, AList.lookup_insert_ne h]

theorem lookup_insert_eq_some {b : α} :
    (t.insert k a).lookup j = some b ↔ (j = k ∧ b = a) ∨ (j ≠ k ∧ t.lookup j = some b) := by
  rw [lookup_insert_ite]
  split
  · rename_i h
    simp [h, eq_comm]
  · rename_i h
    simp [h]

theorem lookup_erase_ite : (t.erase k).lookup j = if j = k then none else t.lookup j := by
  by_cases h : j = k
  · subst h
    rw [if_pos rfl, AList.lookup_erase]
  · rw [if_neg h, AList.lookup_erase_ne h]

theorem keys_insert_of_lookup_eq_none (h : t.lookup k = none) :
    (t.insert k a).keys = k :: t.keys := by
  rw [AList.keys, AList.entries_insert_of_notMem (AList.lookup_eq_none.mp h)]
  rfl

/-! ## All values -/

def mapValues (f : α → α) (t : Table κ α) : Table κ α where
  entries := t.entries.map fun e => ⟨e.1, f e.2⟩
  nodupKeys := by
    have hkeys : (t.entries.map fun e => (⟨e.1, f e.2⟩ : Sigma fun _ : κ => α)).keys = t.keys := by
      rw [List.keys, List.map_map]
      rfl
    rw [List.NodupKeys, hkeys]
    exact t.keys_nodup

theorem lookup_mapValues {f : α → α} : (t.mapValues f).lookup j = (t.lookup j).map f := by
  obtain ⟨entries, hnodup⟩ := t
  simp only [AList.lookup, mapValues]
  clear hnodup
  induction entries with
  | nil => rfl
  | cons e entries ih =>
      obtain ⟨i, a⟩ := e
      by_cases h : i = j
      · subst h
        simp [List.dlookup_cons_eq]
      · have hskip (l : List (Sigma fun _ : κ => α)) (b : α) :
            List.dlookup j (⟨i, b⟩ :: l) = List.dlookup j l :=
          List.dlookup_cons_ne l ⟨i, b⟩ (Ne.symm h)
        simpa only [List.map_cons, hskip] using ih

/-- The keys and values, in the table's own order. -/
def values (t : Table κ α) : List α := t.entries.map Sigma.snd

def retain (p : α → Bool) (t : Table κ α) : Table κ α where
  entries := t.entries.filter fun e => p e.2
  nodupKeys := t.nodupKeys.sublist List.filter_sublist

theorem lookup_retain {p : α → Bool} : (t.retain p).lookup j = (t.lookup j).filter p := by
  refine Option.ext fun a => ?_
  rw [← Option.mem_def, AList.mem_lookup_iff, retain, List.mem_filter, ← AList.mem_lookup_iff]
  simp

/-- The entries under the keys that pass. -/
def keep (p : κ → Bool) (t : Table κ α) : Table κ α where
  entries := t.entries.filter fun e => p e.1
  nodupKeys := t.nodupKeys.sublist List.filter_sublist

theorem lookup_keep {p : κ → Bool} :
    (t.keep p).lookup j = if p j then t.lookup j else none := by
  refine Option.ext fun a => ?_
  rw [← Option.mem_def, ← Option.mem_def, AList.mem_lookup_iff, keep, List.mem_filter]
  by_cases hj : p j = true
  · rw [if_pos hj, AList.mem_lookup_iff, and_iff_left hj]
  · simp [hj]

/-! ## One value -/

/-- Change the value under a key, if there is one. -/
def modify (k : κ) (f : α → α) (t : Table κ α) : Table κ α :=
  match t.lookup k with
  | some a => t.insert k (f a)
  | none => t

theorem lookup_modify {f : α → α} :
    (t.modify k f).lookup j = if j = k then (t.lookup j).map f else t.lookup j := by
  unfold modify
  by_cases h : j = k
  · subst h
    cases hk : t.lookup j with
    | none => simp [hk]
    | some a => simp
  · cases t.lookup k with
    | none => simp [h]
    | some a => simp [h, AList.lookup_insert_ne]

/-! ## Batches -/

def eraseAll (ks : List κ) (t : Table κ α) : Table κ α := ks.foldl (fun t k => t.erase k) t

theorem lookup_eraseAll {ks : List κ} :
    (t.eraseAll ks).lookup j = if j ∈ ks then none else t.lookup j := by
  induction ks generalizing t with
  | nil => simp [eraseAll]
  | cons k ks ih =>
      rw [eraseAll, List.foldl_cons, ← eraseAll, ih, lookup_erase_ite]
      by_cases hk : j = k <;> by_cases hks : j ∈ ks <;> simp [hk, hks]

def insertAll (key : α → κ) (as : List α) (t : Table κ α) : Table κ α :=
  as.foldl (fun t a => t.insert (key a) a) t

/-- A batch leaves a key alone, or puts one of its own values there. -/
theorem lookup_insertAll (key : α → κ) (as : List α) (t : Table κ α) (j : κ) :
    ((t.insertAll key as).lookup j = t.lookup j ∧ j ∉ as.map key) ∨
      ∃ a ∈ as, key a = j ∧ (t.insertAll key as).lookup j = some a := by
  induction as generalizing t with
  | nil => exact .inl ⟨rfl, by simp⟩
  | cons b as ih =>
      rcases ih (t.insert (key b) b) with ⟨hsame, hnot⟩ | ⟨a, ha, hkey, hlookup⟩
      · rw [lookup_insert_ite] at hsame
        by_cases hj : j = key b
        · rw [if_pos hj] at hsame
          exact .inr ⟨b, List.mem_cons_self, hj.symm, hsame⟩
        · rw [if_neg hj] at hsame
          exact .inl ⟨hsame, by simpa [hj] using hnot⟩
      · exact .inr ⟨a, List.mem_cons_of_mem _ ha, hkey, hlookup⟩

end Table

/-! ## Lists by class -/

section

variable {κ γ : Type*} {n : Nat} {order order' : γ → List κ} {home home' : κ → Option γ}

/-- The keys of each class, listed once, at most `n` of them. -/
structure Listed (n : Nat) (order : γ → List κ) (home : κ → Option γ) : Prop where
  nodup : ∀ c, (order c).Nodup
  bounded : ∀ c, (order c).length ≤ n
  mem_iff : ∀ c k, k ∈ order c ↔ home k = some c

/-- One class gets a new list, and no key of another class changes. -/
theorem Listed.replace [DecidableEq γ] (h : Listed n order home) {c : γ} {l : List κ}
    (hnodup : l.Nodup) (hbounded : l.length ≤ n)
    (horder : ∀ d, order' d = if d = c then l else order d)
    (hclass : ∀ k, home' k = some c ↔ k ∈ l)
    (hother : ∀ k d, d ≠ c → (home' k = some d ↔ home k = some d)) : Listed n order' home' := by
  refine ⟨fun d => ?_, fun d => ?_, fun d k => ?_⟩ <;> rw [horder d]
  · split
    · exact hnodup
    · exact h.nodup d
  · split
    · exact hbounded
    · exact h.bounded d
  · by_cases hd : d = c
    · subst hd
      rw [if_pos rfl, hclass]
    · rw [if_neg hd, h.mem_iff, hother k d hd]

/-- One class is listed anew and then cut: the keys cut off leave the table. -/
theorem Listed.window [DecidableEq κ] [DecidableEq γ] (h : Listed n order home) {c : γ}
    {l gone kept : List κ} {stored : κ → Option γ} (hnodup : l.Nodup)
    (hcut : (gone ++ kept).Perm l) (hbounded : kept.length ≤ n)
    (hclass : ∀ k, k ∈ l ↔ stored k = some c)
    (hother : ∀ k d, d ≠ c → (stored k = some d ↔ home k = some d))
    (horder : ∀ d, order' d = if d = c then kept else order d)
    (hhome : ∀ k, home' k = if k ∈ gone then none else stored k) : Listed n order' home' := by
  have hsplit : (gone ++ kept).Nodup := hcut.nodup_iff.mpr hnodup
  have hmem (k : κ) : k ∈ gone ∨ k ∈ kept ↔ stored k = some c := by
    rw [← List.mem_append, hcut.mem_iff, hclass]
  obtain ⟨-, hkept, hdisjoint⟩ := List.nodup_append.mp hsplit
  refine h.replace hkept hbounded horder (fun k => ?_) fun k d hd => ?_
  · rw [hhome k]
    by_cases hgone : k ∈ gone
    · have hnot : k ∉ kept := fun hk => hdisjoint k hgone k hk rfl
      simp [hgone, hnot]
    · simpa [hgone] using (hmem k).symm
  · rw [hhome k, ← hother k d hd]
    by_cases hgone : k ∈ gone
    · have hk : stored k = some c := (hmem k).mp (.inl hgone)
      simp [hgone, hk, hd.symm]
    · simp [hgone]

theorem Listed.erase [DecidableEq κ] (h : Listed n order home) {k : κ}
    (horder : ∀ c, order' c = (order c).filter (· ≠ k))
    (hhome : ∀ j, home' j = if j = k then none else home j) : Listed n order' home' := by
  refine ⟨fun c => ?_, fun c => ?_, fun c j => ?_⟩ <;> rw [horder c]
  · exact (h.nodup c).filter _
  · exact Nat.le_trans (List.length_filter_le _ _) (h.bounded c)
  · rw [hhome j, List.mem_filter, h.mem_iff]
    by_cases hj : j = k <;> simp [hj]

end

end Kaede
