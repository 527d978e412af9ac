import Mathlib.Data.List.Basic

/-!
# Keys that expire

A store of keys with a time to live. A row stays in the list after its
time; reading is what tells whether it is still there.
-/

namespace Kaede

/-- A Redis key with its value and the instant it expires. -/
structure Expiring (κ α : Type) where
  key : κ
  value : α
  expiresAt : Nat
deriving DecidableEq, Repr

namespace Expiring

variable {κ α : Type} [DecidableEq κ]

def get (rows : List (Expiring κ α)) (key : κ) (now : Nat) : Option α :=
  (rows.find? fun row => row.key = key ∧ now ≤ row.expiresAt).map Expiring.value

def delete (rows : List (Expiring κ α)) (key : κ) : List (Expiring κ α) :=
  rows.filter fun row => row.key ≠ key

def set (rows : List (Expiring κ α)) (key : κ) (value : α) (expiresAt : Nat) :
    List (Expiring κ α) :=
  { key := key, value := value, expiresAt := expiresAt } :: delete rows key

theorem mem_of_get {rows : List (Expiring κ α)} {key : κ} {now : Nat} {value : α}
    (h : get rows key now = some value) :
    ∃ row ∈ rows, row.key = key ∧ row.value = value ∧ now ≤ row.expiresAt := by
  obtain ⟨row, hfind, hvalue⟩ := Option.map_eq_some_iff.mp h
  have hlive := List.find?_some hfind
  rw [decide_eq_true_eq] at hlive
  exact ⟨row, List.mem_of_find?_eq_some hfind, hlive.1, hvalue, hlive.2⟩

theorem forall_mem_set {P : Expiring κ α → Prop} {rows : List (Expiring κ α)} {key : κ}
    {value : α} {expiresAt : Nat} (hrows : ∀ row ∈ rows, P row)
    (hnew : P { key := key, value := value, expiresAt := expiresAt }) :
    ∀ row ∈ set rows key value expiresAt, P row := by
  intro row hrow
  rcases List.mem_cons.mp hrow with rfl | hrow
  · exact hnew
  · exact hrows row (List.mem_of_mem_filter hrow)

theorem get_of_mem {rows : List (Expiring κ α)} {key : κ} {now : Nat} {row : Expiring κ α}
    (hrow : row ∈ rows) (hkey : row.key = key) (hlive : now ≤ row.expiresAt) :
    get rows key now ≠ none := by
  intro h
  have hnone := List.find?_eq_none.mp (Option.map_eq_none_iff.mp h) row hrow
  rw [decide_eq_true_eq] at hnone
  exact hnone ⟨hkey, hlive⟩

theorem mem_set_of_ne {rows : List (Expiring κ α)} {key : κ} {value : α} {expiresAt : Nat}
    {row : Expiring κ α} (hrow : row ∈ rows) (hkey : row.key ≠ key) :
    row ∈ set rows key value expiresAt :=
  List.mem_cons_of_mem _ (List.mem_filter.mpr ⟨hrow, decide_eq_true hkey⟩)

/-! ## What a read returns after a write -/

/-- `DEL` of several keys at once. -/
def deleteMany (rows : List (Expiring κ α)) (keys : List κ) : List (Expiring κ α) :=
  rows.filter fun row => row.key ∉ keys

theorem get_filter_key {rows : List (Expiring κ α)} {p : κ → Bool} {key : κ} {now : Nat} :
    get (rows.filter fun row => p row.key) key now =
      if p key = true then get rows key now else none := by
  rw [get, get, List.find?_filter]
  split
  · rename_i hp
    refine congrArg _ (congrArg (List.find? · rows) (funext fun row => ?_))
    by_cases hkey : row.key = key
    · simp [hkey, hp]
    · simp [hkey]
  · rename_i hp
    rw [Option.map_eq_none_iff, List.find?_eq_none]
    intro row _ hrow
    simp only [decide_eq_true_eq] at hrow
    exact hp (hrow.2.1 ▸ hrow.1)

theorem get_delete {rows : List (Expiring κ α)} {key k : κ} {now : Nat} :
    get (delete rows key) k now = if k = key then none else get rows k now := by
  refine Eq.trans (@get_filter_key κ α _ rows (fun k => k ≠ key) k now) ?_
  by_cases h : k = key <;> simp [h]

theorem get_deleteMany {rows : List (Expiring κ α)} {keys : List κ} {k : κ} {now : Nat} :
    get (deleteMany rows keys) k now = if k ∈ keys then none else get rows k now := by
  refine Eq.trans (@get_filter_key κ α _ rows (fun k => k ∉ keys) k now) ?_
  by_cases h : k ∈ keys <;> simp [h]

theorem get_set {rows : List (Expiring κ α)} {key k : κ} {value : α} {expiresAt now : Nat} :
    get (set rows key value expiresAt) k now =
      if k = key then if now ≤ expiresAt then some value else none else get rows k now := by
  have hrest := @get_delete κ α _ rows key k now
  rw [get] at hrest
  rw [set, get, List.find?_cons]
  by_cases h : k = key
  · rw [if_pos h] at hrest ⊢
    by_cases hlive : now ≤ expiresAt
    · simp [h, hlive]
    · simpa [h.symm, hlive] using hrest
  · rw [if_neg h] at hrest ⊢
    simpa [Ne.symm h] using hrest

/-- No key has two rows. -/
def Distinct (rows : List (Expiring κ α)) : Prop := (rows.map Expiring.key).Nodup

theorem Distinct.delete {rows : List (Expiring κ α)} (h : Distinct rows) (key : κ) :
    Distinct (delete rows key) :=
  h.sublist (List.filter_sublist.map _)

theorem Distinct.set {rows : List (Expiring κ α)} (h : Distinct rows) (key : κ) (value : α)
    (expiresAt : Nat) : Distinct (set rows key value expiresAt) := by
  refine List.nodup_cons.mpr ⟨fun hmem => ?_, h.delete key⟩
  obtain ⟨row, hrow, hkey⟩ := List.mem_map.mp hmem
  exact of_decide_eq_true (List.mem_filter.mp hrow).2 hkey

/-- A key that is still there later is there now, with the same value. -/
theorem Distinct.get_of_le {rows : List (Expiring κ α)} (h : Distinct rows) {key : κ} {value : α}
    {now later : Nat} (hle : now ≤ later) (hget : get rows key later = some value) :
    get rows key now = some value := by
  induction rows with
  | nil => cases hget
  | cons row rows ih =>
    obtain ⟨hfresh, hrest⟩ := List.nodup_cons.mp h
    rw [get, List.find?_cons] at hget ⊢
    by_cases hkey : row.key = key
    · by_cases hlive : later ≤ row.expiresAt
      · have hnow : now ≤ row.expiresAt := Nat.le_trans hle hlive
        simpa [hkey, hlive, hnow] using hget
      · -- the key has no other row, so it would be gone
        simp only [hkey, hlive, and_false, decide_false] at hget
        obtain ⟨other, hother, hsame, -, -⟩ := mem_of_get hget
        exact absurd (List.mem_map.mpr ⟨other, hother, hsame.trans hkey.symm⟩) hfresh
    · simp only [hkey, false_and, decide_false] at hget ⊢
      exact ih hrest hget

end Expiring

end Kaede
