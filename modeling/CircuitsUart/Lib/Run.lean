import Mathlib

/-!
# Runs of a partial step function

A reactive program is a partial function `step : σ → ε → Option (σ × List ℓ)`: in state
`s`, on event `e`, it either moves to a new state and emits labels, or `e` cannot happen
in `s`. Everything the scheduler, the operating system and the clients decide is in `e`,
so quantifying over events is quantifying over interleavings.

`Reach` is the one notion of run used here. It carries the **history** (every label
emitted so far) next to the state, because the interesting invariants relate the two,
and a **guard** on each step, because the interesting theorems say what holds of the runs
whose every step meets a condition. `Reach.invariant` is the induction, packaged once.

`EveryState` and `EveryStep` read the same two things off a *given* list of events, and
`everyState_iff_everyStep` turns a per-step equivalence into an equivalence of whole
runs. That is the shape of an exact characterisation: the property holds throughout the
run **iff** every step of the run met the condition.
-/

set_option autoImplicit false

namespace CircuitsUart.Lib

variable {σ ε ℓ : Type}

/-- `Reach step G s₀ h s`: some sequence of events leads from `s₀` to `s`, emitting the
history `h`, and each event met the guard `G` at the history and state it found. -/
inductive Reach (step : σ → ε → Option (σ × List ℓ)) (G : List ℓ → σ → ε → Prop) (s₀ : σ) :
    List ℓ → σ → Prop
  | start : Reach step G s₀ [] s₀
  | step {h : List ℓ} {s s' : σ} {e : ε} {out : List ℓ} (reach : Reach step G s₀ h s)
      (guard : G h s e) (took : step s e = some (s', out)) : Reach step G s₀ (h ++ out) s'

/-- The guard that allows every event. -/
def anyStep : List ℓ → σ → ε → Prop := fun _ _ _ => True

/-- **Invariant induction.** What holds at the start and is kept by every guarded step
holds of every history and state reached. -/
theorem Reach.invariant {step : σ → ε → Option (σ × List ℓ)} {G : List ℓ → σ → ε → Prop}
    {s₀ : σ} {I : List ℓ → σ → Prop} (init : I [] s₀)
    (keep : ∀ h s e s' out, I h s → G h s e → step s e = some (s', out) → I (h ++ out) s')
    {h : List ℓ} {s : σ} (r : Reach step G s₀ h s) : I h s := by
  induction r with
  | start => exact init
  | step _ guard took ih => exact keep _ _ _ _ _ ih guard took

/-- A run under a guard is a run under any weaker one. -/
theorem Reach.weaken {step : σ → ε → Option (σ × List ℓ)} {G G' : List ℓ → σ → ε → Prop}
    {s₀ : σ} (weaker : ∀ h s e, G h s e → G' h s e) {h : List ℓ} {s : σ}
    (r : Reach step G s₀ h s) : Reach step G' s₀ h s := by
  induction r with
  | start => exact .start
  | step _ guard took ih => exact .step ih (weaker _ _ _ guard) took

/-! ## A given list of events -/

/-- Run a list of events, collecting the labels; `none` if one of them cannot happen. -/
def exec (step : σ → ε → Option (σ × List ℓ)) : σ → List ε → Option (σ × List ℓ)
  | s, [] => some (s, [])
  | s, e :: es =>
    match step s e with
    | none => none
    | some (s', out) =>
      match exec step s' es with
      | none => none
      | some (s'', rest) => some (s'', out ++ rest)

/-- The first event of a list, and the rest. -/
theorem exec_cons {step : σ → ε → Option (σ × List ℓ)} {s s'' : σ} {e : ε} {es : List ε}
    {out : List ℓ} (ran : exec step s (e :: es) = some (s'', out)) :
    ∃ s' first rest, step s e = some (s', first) ∧ exec step s' es = some (s'', rest) ∧
      out = first ++ rest := by
  simp only [exec] at ran
  cases took : step s e with
  | none => simp [took] at ran
  | some p =>
    obtain ⟨s', first⟩ := p
    cases ran' : exec step s' es with
    | none => simp [took, ran'] at ran
    | some q =>
      obtain ⟨s₂, rest⟩ := q
      simp only [took, ran', Option.some.injEq, Prod.mk.injEq] at ran
      obtain ⟨rfl, rfl⟩ := ran
      exact ⟨s', first, rest, rfl, ran', rfl⟩

/-- Continuing a run by a list of events that can happen. -/
theorem Reach.exec_from {step : σ → ε → Option (σ × List ℓ)} {s₀ : σ} {es : List ε}
    {h : List ℓ} {s s' : σ} {out : List ℓ} (r : Reach step anyStep s₀ h s)
    (he : exec step s es = some (s', out)) : Reach step anyStep s₀ (h ++ out) s' := by
  induction es generalizing h s out with
  | nil =>
    simp only [exec, Option.some.injEq, Prod.mk.injEq] at he
    obtain ⟨rfl, rfl⟩ := he
    simpa using r
  | cons e es ih =>
    obtain ⟨s₁, first, rest, took, ran, rfl⟩ := exec_cons he
    have := ih (Reach.step r trivial took) ran
    rwa [List.append_assoc] at this

theorem Reach.of_exec {step : σ → ε → Option (σ × List ℓ)} {s₀ s : σ} {es : List ε}
    {out : List ℓ} (he : exec step s₀ es = some (s, out)) : Reach step anyStep s₀ out s := by
  simpa using Reach.exec_from .start he

/-- **A step that is always taken.** If, under an invariant of history and state, every event can
happen and keeps the invariant, so can every list of events, and it keeps it. -/
theorem exec_of_keeps {step : σ → ε → Option (σ × List ℓ)} {I : List ℓ → σ → Prop}
    (keeps : ∀ h s e, I h s → ∃ s' out, step s e = some (s', out) ∧ I (h ++ out) s')
    (es : List ε) {h : List ℓ} {s : σ} (hI : I h s) :
    ∃ s' out, exec step s es = some (s', out) ∧ I (h ++ out) s' := by
  induction es generalizing h s with
  | nil => exact ⟨s, [], rfl, by rwa [List.append_nil]⟩
  | cons e es ih =>
    obtain ⟨s₁, out, took, hI₁⟩ := keeps h s e hI
    obtain ⟨s', rest, ran, hI'⟩ := ih hI₁
    refine ⟨s', out ++ rest, by simp only [exec, took, ran], ?_⟩
    rwa [List.append_assoc] at hI'

/-- The events can happen one after another, each meeting a guard that can be computed. -/
def permitted (step : σ → ε → Option (σ × List ℓ)) (G : σ → ε → Bool) : σ → List ε → Bool
  | _, [] => true
  | s, e :: es =>
    match step s e with
    | none => false
    | some (s', _) => G s e && permitted step G s' es

theorem Reach.of_permitted {step : σ → ε → Option (σ × List ℓ)} {G : σ → ε → Bool} {s₀ : σ}
    {es : List ε} {h : List ℓ} {s s' : σ} {out : List ℓ}
    (r : Reach step (fun _ s e => G s e = true) s₀ h s) (hp : permitted step G s es = true)
    (he : exec step s es = some (s', out)) :
    Reach step (fun _ s e => G s e = true) s₀ (h ++ out) s' := by
  induction es generalizing h s out with
  | nil =>
    simp only [exec, Option.some.injEq, Prod.mk.injEq] at he
    obtain ⟨rfl, rfl⟩ := he
    simpa using r
  | cons e es ih =>
    obtain ⟨s₁, first, rest, took, ran, rfl⟩ := exec_cons he
    simp only [permitted, took, Bool.and_eq_true] at hp
    have := ih (Reach.step r hp.1 took) hp.2 ran
    rwa [List.append_assoc] at this

/-- `P` holds of every state the events lead through, the first one included. -/
def EveryState (step : σ → ε → Option (σ × List ℓ)) (P : σ → Prop) : σ → List ε → Prop
  | s, [] => P s
  | s, e :: es => P s ∧ ∀ s' out, step s e = some (s', out) → EveryState step P s' es

/-- Every event meets `G` in the state it finds. -/
def EveryStep (step : σ → ε → Option (σ × List ℓ)) (G : σ → ε → Prop) : σ → List ε → Prop
  | _, [] => True
  | s, e :: es =>
    ∀ s' out, step s e = some (s', out) → G s e ∧ EveryStep step G s' es

/-- **From an exact step to an exact run.** If, under an invariant `I`, a step out of a
state where `P` holds re-establishes `P` exactly when it meets `G`, then `P` holds
throughout a run exactly when every one of its steps meets `G`. -/
theorem everyState_iff_everyStep {step : σ → ε → Option (σ × List ℓ)} {I P : σ → Prop}
    {G : σ → ε → Prop}
    (keep : ∀ s e s' out, I s → step s e = some (s', out) → I s')
    (exact_step : ∀ s e s' out, I s → P s → step s e = some (s', out) → (P s' ↔ G s e))
    {s : σ} {es : List ε} (hI : I s) (hP : P s) :
    EveryState step P s es ↔ EveryStep step G s es := by
  induction es generalizing s with
  | nil => simp [EveryState, EveryStep, hP]
  | cons e es ih =>
    have head : ∀ s', EveryState step P s' es → P s' := fun s' h => by
      cases es with
      | nil => exact h
      | cons _ _ => exact h.1
    constructor
    · rintro ⟨-, hs⟩ s' out took
      have hP' := head s' (hs s' out took)
      exact ⟨(exact_step s e s' out hI hP took).mp hP',
        (ih (keep s e s' out hI took) hP').mp (hs s' out took)⟩
    · intro hs
      refine ⟨hP, fun s' out took => ?_⟩
      obtain ⟨hG, hrest⟩ := hs s' out took
      exact (ih (keep s e s' out hI took) ((exact_step s e s' out hI hP took).mpr hG)).mpr hrest

/-- A run whose guard can be computed meets it. -/
theorem EveryStep.of_permitted {step : σ → ε → Option (σ × List ℓ)} {G : σ → ε → Prop}
    [∀ s e, Decidable (G s e)] {es : List ε} {s : σ}
    (h : permitted step (fun s e => decide (G s e)) s es = true) : EveryStep step G s es := by
  induction es generalizing s with
  | nil => trivial
  | cons e es ih =>
    intro s' out took
    simp only [permitted, took, Bool.and_eq_true, decide_eq_true_eq] at h
    exact ⟨h.1, ih h.2⟩

/-- Two guards that agree, under an invariant `I` that steps meeting the first one keep, on the
events of a run hold of the same runs. -/
theorem everyStep_congr {step : σ → ε → Option (σ × List ℓ)} {I : σ → Prop} {E : ε → Prop}
    {G G' : σ → ε → Prop}
    (keep : ∀ s e s' out, I s → E e → G s e → step s e = some (s', out) → I s')
    (agree : ∀ s e s' out, I s → E e → step s e = some (s', out) → (G s e ↔ G' s e))
    {es : List ε} (events : ∀ e ∈ es, E e) {s : σ} (hI : I s) :
    EveryStep step G s es ↔ EveryStep step G' s es := by
  induction es generalizing s with
  | nil => exact Iff.rfl
  | cons e es ih =>
    have here : E e := events e List.mem_cons_self
    have rest : ∀ s', I s' → (EveryStep step G s' es ↔ EveryStep step G' s' es) :=
      fun s' hI' => ih (fun e' he' => events e' (List.mem_cons_of_mem e he')) hI'
    refine forall_congr' fun s' => forall_congr' fun out => ?_
    constructor
    · intro h took
      obtain ⟨hG, hs⟩ := h took
      have hI' := keep s e s' out hI here hG took
      exact ⟨(agree s e s' out hI here took).mp hG, (rest s' hI').mp hs⟩
    · intro h took
      obtain ⟨hG', hs⟩ := h took
      have hG := (agree s e s' out hI here took).mpr hG'
      exact ⟨hG, (rest s' (keep s e s' out hI here hG took)).mpr hs⟩

theorem EveryState.mono {step : σ → ε → Option (σ × List ℓ)} {P Q : σ → Prop}
    (hPQ : ∀ s, P s → Q s) {s : σ} {es : List ε} (h : EveryState step P s es) :
    EveryState step Q s es := by
  induction es generalizing s with
  | nil => exact hPQ s h
  | cons e es ih => exact ⟨hPQ s h.1, fun s' out took => ih (h.2 s' out took)⟩

/-- The last state of a run is one of its states. -/
theorem EveryState.of_exec {step : σ → ε → Option (σ × List ℓ)} {P : σ → Prop} {s s' : σ}
    {es : List ε} {out : List ℓ} (h : EveryState step P s es)
    (he : exec step s es = some (s', out)) : P s' := by
  induction es generalizing s out with
  | nil =>
    simp only [exec, Option.some.injEq, Prod.mk.injEq] at he
    obtain ⟨rfl, rfl⟩ := he
    exact h
  | cons e es ih =>
    obtain ⟨s₁, first, rest, took, ran, rfl⟩ := exec_cons he
    exact ih (h.2 s₁ first took) ran

end CircuitsUart.Lib
