import CircuitsUart.Lib.Run

/-!
# Infinite runs and what they lead to

An `Execution` is a run that goes on for ever. What it must come to rests on fairness: something
that can happen, and goes on being possible, happens. `LeadsTo` is the relation between what holds
at one time and what holds at that time or later; it is proved of one stage by `LeadsTo.of_fair`,
of a stage that has to be passed a number of times by `LeadsTo.of_variant`, and of a path of
stages by `LeadsTo.trans`.

Predicates are of the time, not of the state: a stage may speak of what the next event is, of the
labels so far (`past`), or of a clock. `WeaklyFair` is stated of two such predicates for the same
reason, and `Execution.FairTo` is the case of a kind of event.

Nothing is assumed of how long a stage takes. `of_rank` and `of_variant` count what is left to be
done, never time.
-/

set_option autoImplicit false

namespace CircuitsUart.Lib

/-- The labels of the first steps. -/
def past {ℓ : Type} (out : ℕ → List ℓ) : ℕ → List ℓ
  | 0 => []
  | n + 1 => past out n ++ out n

/-- What has been emitted stays. -/
theorem past_prefix {ℓ : Type} (out : ℕ → List ℓ) {n m : ℕ} (le : n ≤ m) :
    past out n <+: past out m := by
  induction m, le using Nat.le_induction with
  | base => exact List.prefix_refl _
  | succ m _ ih => exact ih.trans (List.prefix_append _ _)

/-- An infinite run from `s₀`, whose every step meets the guard. -/
structure Execution {σ ε ℓ : Type} (step : σ → ε → Option (σ × List ℓ))
    (G : List ℓ → σ → ε → Prop) (s₀ : σ) where
  state : ℕ → σ
  event : ℕ → ε
  out : ℕ → List ℓ
  start : state 0 = s₀
  guard (n : ℕ) : G (past out n) (state n) (event n)
  took (n : ℕ) : step (state n) (event n) = some (state (n + 1), out n)

/-- What it passes through is reached. -/
theorem Execution.reach {σ ε ℓ : Type} {step : σ → ε → Option (σ × List ℓ)}
    {G : List ℓ → σ → ε → Prop} {s₀ : σ} (run : Execution step G s₀) (n : ℕ) :
    Reach step G s₀ (past run.out n) (run.state n) := by
  induction n with
  | zero =>
    rw [run.start]
    exact .start
  | succ n ih => exact .step ih (run.guard n) (run.took n)

/-- Whenever the one holds, the other does then or later. -/
def LeadsTo (A B : ℕ → Prop) : Prop := ∀ n, A n → ∃ m, n ≤ m ∧ B m

/-- What is possible from some time on happens. -/
def WeaklyFair (happens possible : ℕ → Prop) : Prop :=
  ∀ n, ∃ m, n ≤ m ∧ (happens m ∨ ¬ possible m)

/-- A kind of event is not put off for ever: from every time on there is one, or a time when there
can be none. -/
def Execution.FairTo {σ ε ℓ : Type} {step : σ → ε → Option (σ × List ℓ)}
    {G : List ℓ → σ → ε → Prop} {s₀ : σ} (run : Execution step G s₀) (kind : ε → Prop) : Prop :=
  WeaklyFair (fun n => kind (run.event n))
    fun n => ∃ e s' out, kind e ∧ step (run.state n) e = some (s', out)

namespace LeadsTo

variable {A B C happens possible : ℕ → Prop}

theorem of_imp (h : ∀ n, A n → B n) : LeadsTo A B := fun n hA => ⟨n, le_rfl, h n hA⟩

theorem trans (h : LeadsTo A B) (k : LeadsTo B C) : LeadsTo A C := by
  intro n hA
  obtain ⟨m, hm, hB⟩ := h n hA
  obtain ⟨l, hl, hC⟩ := k m hB
  exact ⟨l, hm.trans hl, hC⟩

theorem or (h : LeadsTo A C) (k : LeadsTo B C) : LeadsTo (fun n => A n ∨ B n) C := by
  rintro n (hA | hB)
  · exact h n hA
  · exact k n hB

/-- What is under way may go another way on the way. -/
theorem trans_or {D : ℕ → Prop} (h : LeadsTo A fun n => D n ∨ B n) (k : LeadsTo B D) :
    LeadsTo A D := h.trans ((of_imp fun _ => id).or k)

/-- **One stage.** It lasts until it is over; what is fair is possible in it, and ends it. -/
theorem of_fair (fair : WeaklyFair happens possible) (lasts : ∀ n, A n → B (n + 1) ∨ A (n + 1))
    (able : ∀ n, A n → possible n) (ends : ∀ n, A n → happens n → B (n + 1)) : LeadsTo A B := by
  intro n hA
  obtain ⟨m, hm, act⟩ := fair n
  -- it is over by then, or has lasted till then
  have still : ∀ d, (∃ l, n ≤ l ∧ B l) ∨ A (n + d) := by
    intro d
    induction d with
    | zero => exact .inr hA
    | succ d ih =>
      rcases ih with done | here
      · exact .inl done
      · rcases lasts _ here with hB | hA'
        · exact .inl ⟨n + d + 1, by omega, hB⟩
        · exact .inr hA'
  rcases still (m - n) with done | here
  · exact done
  · rw [show n + (m - n) = m by omega] at here
    rcases act with now | never
    · exact ⟨m + 1, by omega, ends m here now⟩
    · exact absurd (able m here) never

/-- **Stages that count down.** -/
theorem of_rank (rank : ℕ → ℕ)
    (h : ∀ k, LeadsTo (fun n => A n ∧ rank n = k) fun n => B n ∨ A n ∧ rank n < k) :
    LeadsTo A B := by
  have bounded : ∀ k, LeadsTo (fun n => A n ∧ rank n < k) B := by
    intro k
    induction k with
    | zero => exact fun n hA => absurd hA.2 (Nat.not_lt_zero _)
    | succ k ih =>
      intro n ⟨hA, hk⟩
      refine (h (rank n)).trans_or ?_ n ⟨hA, rfl⟩
      exact fun m hm => ih m ⟨hm.1, by omega⟩
  exact fun n hA => bounded (rank n + 1) n ⟨hA, Nat.lt_succ_self _⟩

/-- **A stage that what is fair makes smaller**, and that nothing makes larger. -/
theorem of_variant (rank : ℕ → ℕ) (fair : WeaklyFair happens possible)
    (lasts : ∀ n, A n → B (n + 1) ∨ A (n + 1) ∧ rank (n + 1) ≤ rank n)
    (able : ∀ n, A n → possible n)
    (ends : ∀ n, A n → happens n → B (n + 1) ∨ A (n + 1) ∧ rank (n + 1) < rank n) :
    LeadsTo A B := by
  refine of_rank rank fun k => of_fair fair ?_ (fun n hA => able n hA.1) ?_
  · rintro n ⟨hA, rfl⟩
    rcases lasts n hA with hB | ⟨hA', le⟩
    · exact .inl (.inl hB)
    · rcases le.lt_or_eq with lt | eq
      · exact .inl (.inr ⟨hA', lt⟩)
      · exact .inr ⟨hA', eq⟩
  · rintro n ⟨hA, rfl⟩ now
    exact ends n hA now

end LeadsTo

end CircuitsUart.Lib
