import CircuitsUart.Lib.Run

/-!
# One machine that runs as another

Two partial step functions, each with what can be observed of its labels. If the first takes a
step from related states, the second takes any number of steps that show the same and ends in a
related state: then every run of the first is matched by a run of the second. The steps that show
nothing need not be matched at all.

A `Machine` carries its guard and its observation with it, so that two machines with different
events, labels and conditions can be compared by what is seen of them. The answer to one step is a
run and not a step, because that is what refinement needs: the machine below may take several
steps for one above, and stuttering is the empty run.

Only the one direction is here. Two machines have the same histories if each simulates the other,
by one relation or by two that are nothing to each other.
-/

set_option autoImplicit false

namespace CircuitsUart.Lib

variable {σ ε ℓ σ' ε' ℓ' ω : Type}

/-- One run behind another. -/
theorem Reach.trans {step : σ → ε → Option (σ × List ℓ)} {G : σ → ε → Prop} {s₀ s s' : σ}
    {h k : List ℓ} (r : Reach step (fun _ => G) s₀ h s) (q : Reach step (fun _ => G) s k s') :
    Reach step (fun _ => G) s₀ (h ++ k) s' := by
  induction q with
  | start => rwa [List.append_nil]
  | step _ guard took ih =>
    rw [← List.append_assoc]
    exact .step ih guard took

/-- A machine, the events that it is to take, and what is seen of its labels. -/
structure Machine (σ ε ℓ ω : Type) where
  step : σ → ε → Option (σ × List ℓ)
  guard : σ → ε → Prop
  seen : ℓ → Option ω

/-- The guarded runs of a machine. -/
abbrev Machine.Run (M : Machine σ ε ℓ ω) (s : σ) (h : List ℓ) (s' : σ) : Prop :=
  Reach M.step (fun _ => M.guard) s h s'

/-- A run of one step. -/
theorem Machine.one (M : Machine σ ε ℓ ω) {s s' : σ} (e : ε) {out : List ℓ} (guard : M.guard s e)
    (took : M.step s e = some (s', out)) : M.Run s out s' := .step .start guard took

/-- Every step of the first is matched by a run of the second. -/
def Simulates (M : Machine σ ε ℓ ω) (N : Machine σ' ε' ℓ' ω) (R : σ → σ' → Prop) : Prop :=
  ∀ (s : σ) (t : σ') (e : ε) (s₁ : σ) (out : List ℓ), R s t → M.guard s e →
    M.step s e = some (s₁, out) →
      ∃ t₁ k, N.Run t k t₁ ∧ k.filterMap N.seen = out.filterMap M.seen ∧ R s₁ t₁

/-- **So is every run.** -/
theorem Simulates.run {M : Machine σ ε ℓ ω} {N : Machine σ' ε' ℓ' ω} {R : σ → σ' → Prop}
    (sim : Simulates M N R) {s₀ s : σ} {t₀ : σ'} (start : R s₀ t₀) {h : List ℓ}
    (r : M.Run s₀ h s) :
    ∃ t k, N.Run t₀ k t ∧ k.filterMap N.seen = h.filterMap M.seen ∧ R s t := by
  induction r with
  | start => exact ⟨t₀, [], .start, rfl, start⟩
  | step _ guard took ih =>
    obtain ⟨t, k, ran, seen, related⟩ := ih
    obtain ⟨t₁, k₁, ran₁, seen₁, related₁⟩ := sim _ _ _ _ _ related guard took
    refine ⟨t₁, k ++ k₁, ran.trans ran₁, ?_, related₁⟩
    rw [List.filterMap_append, List.filterMap_append, seen, seen₁]

end CircuitsUart.Lib
