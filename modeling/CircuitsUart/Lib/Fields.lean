import Mathlib

/-!
# Writing a record field by field

A family of fields, each with its own key: a write sets the field with its key and leaves the
others. Of a list of writes the last one for a key decides what is read there.

A record with a dozen fields would otherwise need a lemma for each pair of them. `Fields` asks for
one equation instead, what is read of a field after a write to it or to another, and what is read
is itself a write: the one that would leave the field as it is. So one function serves all fields,
whatever their types are, and `read_writes` answers every question about a list of writes by a
question about the last of them.
-/

set_option autoImplicit false

namespace CircuitsUart.Lib

/-- Fields of a state `σ` with keys `κ`, and the writes `ω` that set them. What is read of a field
is the write that would set it so. -/
structure Fields (σ κ ω : Type) [DecidableEq κ] where
  key : ω → κ
  write : ω → σ → σ
  read : κ → σ → ω
  read_write : ∀ k w s, read k (write w s) = if key w = k then w else read k s

namespace Fields

variable {σ κ ω : Type} [DecidableEq κ] (F : Fields σ κ ω)

/-- All of the writes, in their order. -/
def writes (ws : List ω) (s : σ) : σ := ws.foldl (fun s w => F.write w s) s

/-- The last write to the field. -/
def last (k : κ) (ws : List ω) : Option ω := (ws.filter fun w => F.key w = k).getLast?

theorem last_cons (k : κ) (w : ω) (ws : List ω) :
    F.last k (w :: ws) = (F.last k ws).or (if F.key w = k then some w else none) := by
  unfold last
  rw [List.filter_cons]
  by_cases here : F.key w = k
  · rw [if_pos (by simpa using here), if_pos here, List.getLast?_cons]
    cases (ws.filter fun w => F.key w = k).getLast? <;> rfl
  · rw [if_neg (by simpa using here), if_neg here, Option.or_none]

/-- **The last write to a field decides.** -/
theorem read_writes (k : κ) (ws : List ω) (s : σ) :
    F.read k (F.writes ws s) = (F.last k ws).getD (F.read k s) := by
  induction ws generalizing s with
  | nil => rfl
  | cons w ws ih =>
    have next : F.read k (F.writes (w :: ws) s) = (F.last k ws).getD (F.read k (F.write w s)) :=
      ih (F.write w s)
    rw [next, last_cons, F.read_write]
    cases F.last k ws with
    | some _ => rfl
    | none => split <;> rfl

theorem mem_of_last {k : κ} {w : ω} {ws : List ω} (h : F.last k ws = some w) :
    w ∈ ws ∧ F.key w = k := by
  have inside := List.mem_of_getLast? h
  simpa using List.mem_filter.mp inside

/-- A field has a last write exactly if there is one. -/
theorem last_isSome {k : κ} {ws : List ω} :
    (F.last k ws).isSome = true ↔ ∃ w ∈ ws, F.key w = k := by
  constructor
  · intro some_write
    obtain ⟨w, h⟩ := Option.isSome_iff_exists.mp some_write
    exact ⟨w, F.mem_of_last h⟩
  · intro ⟨w, inside, here⟩
    unfold last
    rw [List.getLast?_isSome]
    exact List.ne_nil_of_mem (List.mem_filter.mpr ⟨inside, by simpa using here⟩)

end Fields

end CircuitsUart.Lib
