import Kaede.Requests

/-!
# Actions that settle

An action reads and writes a state and may fail. It settles when its
first success fixes the answer: tried again, at another time and in any
state that has only grown since, it gives the same answer and writes
nothing. What growing means is a relation `R`, and `I` is an invariant of
the states. A sequence of settling actions settles (`Settles.bind`), so a
retried request does as soon as each of its parts does.
-/

namespace Kaede

section

variable {τ σ ε α β : Type} {I : σ → Prop} {R : σ → σ → Prop}

/-- `act t` is the attempt at time `t`. -/
def Settles (I : σ → Prop) (R : σ → σ → Prop) (act : τ → σ → Except ε (α × σ)) : Prop :=
  ∀ t s r, I s → act t s = .ok r →
    I r.2 ∧ R s r.2 ∧ ∀ t' s', I s' → R r.2 s' → act t' s' = .ok (r.1, s')

theorem settles_ok (hrefl : ∀ s, R s s) (a : α) :
    Settles I R fun (_ : τ) s => (.ok (a, s) : Except ε (α × σ)) := by
  intro t s r hs h
  obtain rfl := Except.ok.inj h
  exact ⟨hs, hrefl s, fun _ _ _ _ => rfl⟩

/-- What does not depend on the state can be read first. -/
theorem Settles.read {x : Except ε β} {act : β → τ → σ → Except ε (α × σ)}
    (h : ∀ b, x = .ok b → Settles I R (act b)) :
    Settles I R fun t s => x >>= fun b => act b t s := by
  intro t s r hs hr
  obtain ⟨b, hb, hr⟩ := bind_eq_ok.mp hr
  obtain ⟨hI, hR, hretry⟩ := h b hb t s r hs hr
  refine ⟨hI, hR, fun t' s' hs' hgrown => ?_⟩
  show (x >>= fun b => act b t' s') = _
  rw [hb, ok_bind]
  exact hretry t' s' hs' hgrown

/-- The second action runs in the state the first one left, and a retry
runs both in the state the second one left. -/
theorem Settles.bind (htrans : ∀ {s₁ s₂ s₃}, R s₁ s₂ → R s₂ s₃ → R s₁ s₃)
    {act : τ → σ → Except ε (α × σ)} {next : α → τ → σ → Except ε (β × σ)}
    (h : Settles I R act) (hnext : ∀ a, Settles I R (next a)) :
    Settles I R fun t s => act t s >>= fun r => next r.1 t r.2 := by
  intro t s r hs hr
  obtain ⟨r₁, hr₁, hr₂⟩ := bind_eq_ok.mp hr
  obtain ⟨hI₁, hR₁, hretry₁⟩ := h t s r₁ hs hr₁
  obtain ⟨hI₂, hR₂, hretry₂⟩ := hnext r₁.1 t r₁.2 r hI₁ hr₂
  refine ⟨hI₂, htrans hR₁ hR₂, fun t' s' hs' hgrown => ?_⟩
  show (act t' s' >>= fun r => next r.1 t' r.2) = _
  rw [hretry₁ t' s' hs' (htrans hR₂ hgrown), ok_bind]
  exact hretry₂ t' s' hs' hgrown

/-- Only the answer is rewritten. -/
theorem Settles.map {act : τ → σ → Except ε (α × σ)} (f : α → β) (h : Settles I R act) :
    Settles I R fun t s => act t s >>= fun r => .ok (f r.1, r.2) := by
  intro t s r hs hr
  obtain ⟨r₁, hr₁, hr₂⟩ := bind_eq_ok.mp hr
  obtain rfl := Except.ok.inj hr₂
  obtain ⟨hI, hR, hretry⟩ := h t s r₁ hs hr₁
  refine ⟨hI, hR, fun t' s' hs' hgrown => ?_⟩
  show (act t' s' >>= fun r => .ok (f r.1, r.2)) = _
  rw [hretry t' s' hs' hgrown, ok_bind]

end

end Kaede
