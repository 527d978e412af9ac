import Mathlib.Logic.Basic

/-!
# Actions that fail without a trace

A step of a program that writes as it goes: it may fail, and what it wrote
before stays written. `Atomic` says that nothing was. The rules follow the
way such code is written to have it: read and check first (`ReadOnly`),
write once nothing can fail any more (`Total`).
-/

namespace Kaede

/-- An action gives a value or an error, and leaves a state either way. -/
def Action (ε σ α : Type) := σ → Except ε α × σ

namespace Action

variable {ε σ α β : Type}

instance : Monad (Action ε σ) where
  pure a := fun s => (.ok a, s)
  bind m f := fun s =>
    match m s with
    | (.ok a, s') => f a s'
    | (.error e, s') => (.error e, s')

def fail (e : ε) : Action ε σ α := fun s => (.error e, s)

def read : Action ε σ σ := fun s => (.ok s, s)

def write (f : σ → σ) : Action ε σ Unit := fun s => (.ok (), f s)

def ofExcept (x : Except ε α) : Action ε σ α := fun s => (x, s)

/-- The state is never written. -/
def ReadOnly (m : Action ε σ α) : Prop := ∀ s, (m s).2 = s

/-- There is no error. -/
def Total (m : Action ε σ α) : Prop := ∀ s, ∃ a, (m s).1 = .ok a

/-- An error leaves the state as it was. -/
def Atomic (m : Action ε σ α) : Prop := ∀ s e, (m s).1 = .error e → (m s).2 = s

variable {m : Action ε σ α} {f : α → Action ε σ β}

theorem bind_of_ok {s s' : σ} {a : α} (h : m s = (.ok a, s')) : (m >>= f) s = f a s' := by
  simp only [bind, h]

theorem bind_of_error {s s' : σ} {e : ε} (h : m s = (.error e, s')) :
    (m >>= f) s = (.error e, s') := by
  simp only [bind, h]

/-! ## Reading -/

theorem readOnly_pure (a : α) : ReadOnly (pure a : Action ε σ α) := fun _ => rfl

theorem readOnly_fail (e : ε) : ReadOnly (fail e : Action ε σ α) := fun _ => rfl

theorem readOnly_read : ReadOnly (read : Action ε σ σ) := fun _ => rfl

theorem ReadOnly.bind (hm : ReadOnly m) (hf : ∀ a, ReadOnly (f a)) : ReadOnly (m >>= f) := by
  intro s
  rcases hrun : m s with ⟨x, s'⟩
  have hs : s' = s := by
    have h := hm s
    rwa [hrun] at h
  cases x with
  | ok a =>
    rw [bind_of_ok hrun, hs]
    exact hf a s
  | error e =>
    rw [bind_of_error hrun]
    exact hs

/-! ## Writing -/

theorem total_pure (a : α) : Total (pure a : Action ε σ α) := fun _ => ⟨a, rfl⟩

theorem total_write (g : σ → σ) : Total (write g : Action ε σ Unit) := fun _ => ⟨(), rfl⟩

theorem Total.bind (hm : Total m) (hf : ∀ a, Total (f a)) : Total (m >>= f) := by
  intro s
  rcases hrun : m s with ⟨x, s'⟩
  obtain ⟨a, ha⟩ := hm s
  rw [hrun] at ha
  obtain rfl : x = .ok a := ha
  rw [bind_of_ok hrun]
  exact hf a s'

/-! ## Both -/

theorem ReadOnly.atomic (hm : ReadOnly m) : Atomic m := fun s _ _ => hm s

theorem Total.atomic (hm : Total m) : Atomic m := by
  intro s e he
  obtain ⟨a, ha⟩ := hm s
  rw [ha] at he
  cases he

/-- Check first. -/
theorem ReadOnly.then_atomic (hm : ReadOnly m) (hf : ∀ a, Atomic (f a)) : Atomic (m >>= f) := by
  intro s e he
  rcases hrun : m s with ⟨x, s'⟩
  have hs : s' = s := by
    have h := hm s
    rwa [hrun] at h
  subst hs
  cases x with
  | ok a =>
    rw [bind_of_ok hrun] at he ⊢
    exact hf a s' e he
  | error e' => rw [bind_of_error hrun]

end Action

end Kaede
