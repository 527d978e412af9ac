import Mathlib.Data.List.Basic

/-!
# Runs of a guarded step function

A system is a partial step function `step : σ → ι → Option σ`: the input
carries every choice the environment makes (which request arrives, what a
clock reads, which message is delivered), and `none` means the input is
not enabled in that state. `Exec step C s is s'` is a run that consumes
the inputs `is`, every step of which meets the guard `C`.

Guards let one definition serve both kinds of statement a development
makes: `Always` for a claim about every run, and a proper guard for a
claim that holds as long as each step stays inside a stated condition.
The only proof rule needed is `Exec.invariant`; the executable `runFrom`
turns a concrete input list into a run for witnesses.
-/

namespace Kaede

section

variable {σ ι : Type*} {step : σ → ι → Option σ} {C D : σ → ι → Prop}

/-- A run from `s` to `s'` over the inputs `is`, each step enabled and
inside the guard `C`. -/
inductive Exec (step : σ → ι → Option σ) (C : σ → ι → Prop) : σ → List ι → σ → Prop
  | nil (s : σ) : Exec step C s [] s
  | cons {s s₁ s₂ : σ} {i : ι} {is : List ι} :
      C s i → step s i = some s₁ → Exec step C s₁ is s₂ → Exec step C s (i :: is) s₂

/-- The guard that admits every step. -/
def Always (_ : σ) (_ : ι) : Prop := True

namespace Exec

/-- The invariant rule: what every guarded step preserves, every guarded
run preserves. -/
theorem invariant {I : σ → Prop}
    (hstep : ∀ s i s', I s → C s i → step s i = some s' → I s')
    {s s' : σ} {is : List ι} (hrun : Exec step C s is s') (hs : I s) : I s' := by
  induction hrun with
  | nil s => exact hs
  | cons hC hs₁ _ ih => exact ih (hstep _ _ _ hs hC hs₁)

theorem append {s s₁ s₂ : σ} {is js : List ι} (hfirst : Exec step C s is s₁)
    (hsecond : Exec step C s₁ js s₂) : Exec step C s (is ++ js) s₂ := by
  induction hfirst with
  | nil s => exact hsecond
  | cons hC hs _ ih => exact .cons hC hs (ih hsecond)

theorem mono (h : ∀ s i, C s i → D s i) {s s' : σ} {is : List ι}
    (hrun : Exec step C s is s') : Exec step D s is s' := by
  induction hrun with
  | nil s => exact .nil s
  | cons hC hs _ ih => exact .cons (h _ _ hC) hs ih

end Exec

/-! ## Executing a concrete input list -/

/-- Run the inputs one after another; `none` as soon as one is not
enabled or leaves the guard. -/
def runFrom (step : σ → ι → Option σ) (C : σ → ι → Prop) [∀ s i, Decidable (C s i)] :
    σ → List ι → Option σ
  | s, [] => some s
  | s, i :: is => if C s i then (step s i).bind fun s₁ => runFrom step C s₁ is else none

theorem Exec.of_runFrom [∀ s i, Decidable (C s i)] :
    ∀ {is : List ι} {s s' : σ}, runFrom step C s is = some s' → Exec step C s is s'
  | [], s, s', h => by
      obtain rfl : s = s' := Option.some.inj h
      exact .nil s
  | i :: is, s, s', h => by
      rw [runFrom] at h
      split at h
      · rename_i hC
        obtain ⟨s₁, hs₁, hrest⟩ := Option.bind_eq_some_iff.mp h
        exact .cons hC hs₁ (Exec.of_runFrom hrest)
      · cases h

/-- A run whose end is known by what `f` reads of it. -/
theorem Exec.of_runFrom_map [∀ s i, Decidable (C s i)] {α : Type*} {f : σ → α} {x : α} {s : σ}
    {is : List ι} (h : (runFrom step C s is).map f = some x) :
    ∃ s', Exec step C s is s' ∧ f s' = x := by
  obtain ⟨s', hs', hx⟩ := Option.map_eq_some_iff.mp h
  exact ⟨s', .of_runFrom hs', hx⟩

instance (s : σ) (i : ι) : Decidable (Always s i) := inferInstanceAs (Decidable True)

end

end Kaede
