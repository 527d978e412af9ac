import Mathlib.Data.List.Nodup

/-!
# Checked requests over keyed tables

A request handler is a sequence of checks and writes in `Except`: the
first check that fails ends it with its error. The tables it works on
are lists of rows with a key column. Here are the two things every proof
about such a handler needs: how to take a successful run apart
(`check_bind_eq_ok`, `found_bind_eq_ok`), and what a lookup returns
after a write to the table.
-/

namespace Kaede

section

variable {ε α β : Type}

/-- A check: go on if `p` holds, end with `e` otherwise. -/
def ensure (p : Prop) [Decidable p] (e : ε) : Except ε Unit := if p then .ok () else .error e

/-- The row a lookup has to find. -/
def found (row : Option α) (e : ε) : Except ε α :=
  match row with
  | some a => .ok a
  | none => .error e

theorem bind_eq_ok {x : Except ε α} {f : α → Except ε β} {b : β} :
    (x >>= f) = .ok b ↔ ∃ a, x = .ok a ∧ f a = .ok b := by
  cases x with
  | error e => simp [bind, Except.bind]
  | ok a => simp [bind, Except.bind]

theorem ok_bind {a : α} {f : α → Except ε β} : (Except.ok a >>= f) = f a := rfl

theorem error_bind {e : ε} {f : α → Except ε β} : (Except.error e >>= f) = .error e := rfl

theorem ensure_eq_ok {p : Prop} [Decidable p] {e : ε} {u : Unit} :
    ensure p e = .ok u ↔ p := by
  unfold ensure
  split <;> simp_all

theorem found_eq_ok {row : Option α} {e : ε} {a : α} :
    found row e = .ok a ↔ row = some a := by
  cases row <;> simp [found]

/-- A lookup with a further condition on the row. -/
theorem found_filter {row : Option α} {p : α → Bool} {e : ε} :
    found (row.filter p) e = match row with
      | some a => if p a then .ok a else .error e
      | none => .error e := by
  cases row with
  | none => rfl
  | some a =>
      rw [Option.filter_some]
      by_cases hp : p a = true
      · simp [hp, found]
      · simp [hp, found]

/-- A check returns nothing, so only its success matters. -/
theorem check_bind_eq_ok {x : Except ε Unit} {f : Unit → Except ε β} {b : β} :
    (x >>= f) = .ok b ↔ x = .ok () ∧ f () = .ok b := by
  rw [bind_eq_ok]
  constructor
  · rintro ⟨u, hu, hf⟩
    exact ⟨hu, hf⟩
  · rintro ⟨hx, hf⟩
    exact ⟨(), hx, hf⟩

theorem found_bind_eq_ok {row : Option α} {e : ε} {f : α → Except ε β} {b : β} :
    (found row e >>= f) = .ok b ↔ ∃ a, row = some a ∧ f a = .ok b := by
  simp only [bind_eq_ok, found_eq_ok]

theorem toOption_eq_some {x : Except ε α} {a : α} : x.toOption = some a ↔ x = .ok a := by
  cases x <;> simp [Except.toOption]

/-- A loop of checks. -/
def forEach (xs : List α) (check : α → Except ε Unit) : Except ε Unit :=
  match xs with
  | [] => .ok ()
  | x :: rest => do
      check x
      forEach rest check

theorem forEach_eq_ok {xs : List α} {check : α → Except ε Unit} {u : Unit} :
    forEach xs check = .ok u ↔ ∀ x ∈ xs, check x = .ok () := by
  induction xs with
  | nil => simp [forEach]
  | cons x rest ih =>
      simp only [forEach, check_bind_eq_ok, ih, List.forall_mem_cons]

/-! ## What a request can end in -/

/-- Either the request goes through and `Q` holds of what it returns, or it
is refused for a reason in `E`. -/
def Outcome (x : Except ε α) (Q : α → Prop) (E : ε → Prop) : Prop :=
  match x with
  | .ok a => Q a
  | .error e => E e

section

variable {Q : α → Prop} {E : ε → Prop} {R : β → Prop} {x : Except ε α} {f : α → Except ε β}

theorem Outcome.imp {Q' : α → Prop} (h : Outcome x Q E) (hQ : ∀ a, Q a → Q' a) :
    Outcome x Q' E := by
  cases x with
  | ok a => exact hQ a h
  | error e => exact h

theorem Outcome.bind (h : Outcome x (fun a => Outcome (f a) R E) E) : Outcome (x >>= f) R E := by
  cases x with
  | ok a => exact h
  | error e => exact h

theorem outcome_ensure {p : Prop} [Decidable p] {e : ε} {Q : Unit → Prop} (he : ¬ p → E e)
    (hQ : p → Q ()) : Outcome (ensure p e) Q E := by
  unfold ensure
  split
  case isTrue h => exact hQ h
  case isFalse h => exact he h

theorem outcome_found {row : Option α} {e : ε} (he : row = none → E e)
    (hQ : ∀ a, row = some a → Q a) : Outcome (found row e) Q E := by
  cases row with
  | none => exact he rfl
  | some a => exact hQ a rfl

/-- A loop of checks whose refusals are all in `E`. -/
theorem outcome_forEach {xs : List α} {check : α → Except ε Unit}
    (h : ∀ a ∈ xs, Outcome (check a) (fun _ => True) E) :
    Outcome (forEach xs check) (fun _ => True) E := by
  induction xs with
  | nil => trivial
  | cons a rest ih =>
      have hrest := ih fun b hb => h b (List.mem_cons_of_mem a hb)
      exact Outcome.bind ((h a List.mem_cons_self).imp fun _ _ => hrest)

end

end

/-! ## Keyed tables -/

section

variable {α κ : Type*} [DecidableEq κ]

/-- The row with this key. -/
def lookupBy (key : α → κ) (k : κ) (rows : List α) : Option α := rows.find? fun r => key r = k

/-- Rewrite the rows with this key. -/
def updateBy (key : α → κ) (k : κ) (f : α → α) (rows : List α) : List α :=
  rows.map fun r => if key r = k then f r else r

variable {key : α → κ} {k j : κ} {r : α} {rows : List α} {f : α → α}

theorem mem_of_lookupBy (h : lookupBy key k rows = some r) : r ∈ rows :=
  List.mem_of_find?_eq_some h

theorem key_of_lookupBy (h : lookupBy key k rows = some r) : key r = k := by
  simpa using List.find?_some h

theorem lookupBy_map (hf : ∀ r, key (f r) = key r) :
    lookupBy key k (rows.map f) = (lookupBy key k rows).map f := by
  rw [lookupBy, List.find?_map, lookupBy]
  congr 2
  funext r
  simp [hf r]

theorem lookupBy_updateBy (hf : ∀ r, key r = k → key (f r) = k) :
    lookupBy key j (updateBy key k f rows)
      = if j = k then (lookupBy key k rows).map f else lookupBy key j rows := by
  have hkey : ∀ r, key (if key r = k then f r else r) = key r := by
    intro r
    by_cases h : key r = k
    · simp [h, hf r h]
    · simp [h]
  rw [updateBy, lookupBy_map hkey]
  by_cases hj : j = k
  · subst hj
    rw [if_pos rfl]
    apply Option.map_congr
    intro r hr
    simp [key_of_lookupBy hr]
  · rw [if_neg hj]
    have hid : ∀ r ∈ lookupBy key j rows, (if key r = k then f r else r) = r := by
      intro r hr
      have hr' := key_of_lookupBy hr
      rw [if_neg (by rw [hr']; exact hj)]
    rw [Option.map_congr hid, Option.map_id']

theorem lookupBy_of_mem (hnodup : (rows.map key).Nodup) (hr : r ∈ rows) :
    lookupBy key (key r) rows = some r := by
  induction rows with
  | nil => cases hr
  | cons a rest ih =>
      rw [List.map_cons, List.nodup_cons] at hnodup
      rcases List.mem_cons.mp hr with rfl | hr
      · simp [lookupBy]
      · have hne : key a ≠ key r := by
          intro he
          exact hnodup.1 (he ▸ List.mem_map_of_mem hr)
        have htail := ih hnodup.2 hr
        simpa [lookupBy, List.find?_cons, hne] using htail

theorem lookupBy_eq_none (h : lookupBy key k rows = none) : ∀ r ∈ rows, key r ≠ k := by
  simpa [lookupBy] using h

theorem lookupBy_append_of_ne (h : key r ≠ k) :
    lookupBy key k (rows ++ [r]) = lookupBy key k rows := by
  simp [lookupBy, List.find?_append, h]

/-- Rows with this key are all kept. -/
theorem lookupBy_filter {p : α → Bool} (h : ∀ r, key r = k → p r = true) :
    lookupBy key k (rows.filter p) = lookupBy key k rows := by
  rw [lookupBy, List.find?_filter, lookupBy]
  congr 1
  funext r
  by_cases hr : key r = k
  · simp [hr, h r hr]
  · simp [hr]

theorem lookupBy_filter_none {p : α → Bool} (h : lookupBy key k rows = none) :
    lookupBy key k (rows.filter p) = none := by
  rw [lookupBy, List.find?_eq_none]
  intro r hr
  have hne := lookupBy_eq_none h r (List.mem_of_mem_filter hr)
  simpa using hne

theorem map_key_updateBy (hf : ∀ r, key r = k → key (f r) = k) :
    (updateBy key k f rows).map key = rows.map key := by
  rw [updateBy, List.map_map]
  apply List.map_congr_left
  intro a _
  by_cases hk : key a = k
  · simp [hk, hf a hk]
  · simp [hk]

theorem mem_updateBy_of_ne (hr : r ∈ rows) (hk : key r ≠ k) : r ∈ updateBy key k f rows :=
  List.mem_map.mpr ⟨r, hr, if_neg hk⟩

theorem mem_updateBy {x : α} (h : x ∈ updateBy key k f rows) :
    (∃ r ∈ rows, key r = k ∧ x = f r) ∨ x ∈ rows ∧ key x ≠ k := by
  obtain ⟨r, hr, rfl⟩ := List.mem_map.mp h
  by_cases hk : key r = k
  · exact .inl ⟨r, hr, hk, if_pos hk⟩
  · rw [if_neg hk]
    exact .inr ⟨hr, hk⟩

/-- One row has the key, so only what becomes of that row matters. -/
theorem updateBy_const (hnodup : (rows.map key).Nodup) (hr : r ∈ rows) :
    updateBy key (key r) f rows = updateBy key (key r) (fun _ => f r) rows := by
  apply List.map_congr_left
  intro a ha
  by_cases hk : key a = key r
  · rw [if_pos hk, if_pos hk, List.inj_on_of_nodup_map hnodup ha hr hk]
  · rw [if_neg hk, if_neg hk]

theorem updateBy_updateBy {f₁ f₂ : α → α} (hf : ∀ r, key r = k → key (f₁ r) = k) :
    updateBy key k f₂ (updateBy key k f₁ rows) = updateBy key k (fun r => f₂ (f₁ r)) rows := by
  rw [updateBy, updateBy, List.map_map]
  apply List.map_congr_left
  intro a _
  by_cases hk : key a = k
  · simp [hk, hf a hk]
  · simp [hk]

end

end Kaede
