import Mathlib.Data.List.Infix

/-!
# What stands behind a pattern

`behind pattern s` is what is left of `s` after the first occurrence of `pattern` in it. A
separator that the pattern does not contain cuts the search in two: an occurrence is on one side
of it or on the other.

This is `strstr` and a step past the pattern. It is defined on lists and not on addresses, because
a text that is searched again from where the last search ended is a suffix of the first one, and
`behind_append_cons` then turns a search through a text of lines into a search through its first
line and, if that fails, one through the rest.
-/

set_option autoImplicit false

namespace CircuitsUart.Lib

variable {α : Type} [DecidableEq α]

/-- The rest after the first occurrence. -/
def behind (pattern : List α) : List α → Option (List α)
  | [] => if pattern = [] then some [] else none
  | a :: s => if pattern <+: a :: s then some ((a :: s).drop pattern.length) else behind pattern s

theorem behind_cons_of_not {pattern s : List α} {a : α} (elsewhere : ¬ pattern <+: a :: s) :
    behind pattern (a :: s) = behind pattern s := if_neg elsewhere

theorem behind_of_isPrefix {pattern s : List α} (h : pattern <+: s) :
    behind pattern s = some (s.drop pattern.length) := by
  cases s with
  | nil =>
    obtain rfl := List.prefix_nil.mp h
    rfl
  | cons a s => exact if_pos h

@[simp] theorem behind_append_self (pattern s : List α) :
    behind pattern (pattern ++ s) = some s := by
  rw [behind_of_isPrefix (List.prefix_append pattern s), List.drop_left]

/-- What is found is the end of the list, with the pattern in front of it. -/
theorem behind_sound {pattern s post : List α} (found : behind pattern s = some post) :
    pattern ++ post <:+ s := by
  induction s with
  | nil =>
    unfold behind at found
    split at found
    · next empty =>
      obtain rfl := Option.some.inj found
      simp [empty]
    · exact absurd found (by simp)
  | cons a s ih =>
    by_cases here : pattern <+: a :: s
    · rw [behind_of_isPrefix here] at found
      obtain rfl := Option.some.inj found
      rw [List.prefix_iff_eq_append.mp here]
    · rw [behind_cons_of_not here] at found
      exact (ih found).trans (List.suffix_cons a s)

omit [DecidableEq α] in
/-- A prefix does not reach beyond a separator it does not contain. -/
theorem isPrefix_append_cons {pattern : List α} {n : α} (clean : n ∉ pattern) (s t : List α) :
    pattern <+: s ++ n :: t ↔ pattern <+: s := by
  constructor
  · intro h
    rcases le_or_gt pattern.length s.length with le | gt
    · exact List.prefix_of_prefix_length_le h (List.prefix_append s _) le
    · -- a longer pattern would have the separator in it
      have reaches : s ++ [n] <+: s ++ n :: t := ⟨t, by simp⟩
      have inside : s ++ [n] <+: pattern := by
        refine List.prefix_of_prefix_length_le reaches h ?_
        rw [List.length_append]
        exact gt
      exact absurd (inside.subset (by simp)) clean
  · intro h
    exact h.trans (List.prefix_append s _)

/-- **A search across a separator** that the pattern does not contain. -/
theorem behind_append_cons {pattern : List α} (ne : pattern ≠ []) {n : α} (clean : n ∉ pattern)
    (s t : List α) : behind pattern (s ++ n :: t) =
      ((behind pattern s).map (· ++ n :: t)).or (behind pattern t) := by
  induction s with
  | nil =>
    have elsewhere : ¬ pattern <+: n :: t := fun h =>
      ne (List.prefix_nil.mp ((isPrefix_append_cons clean [] t).mp h))
    have none_left : behind pattern [] = none := if_neg ne
    rw [List.nil_append, behind_cons_of_not elsewhere, none_left]
    rfl
  | cons a s ih =>
    by_cases here : pattern <+: a :: s
    · have here' : pattern <+: (a :: s) ++ n :: t := here.trans (List.prefix_append (a :: s) _)
      rw [behind_of_isPrefix here', behind_of_isPrefix here,
        List.drop_append_of_le_length here.length_le]
      rfl
    · have elsewhere : ¬ pattern <+: a :: (s ++ n :: t) := fun h =>
        here ((isPrefix_append_cons clean (a :: s) t).mp h)
      rw [List.cons_append, behind_cons_of_not elsewhere, behind_cons_of_not here, ih]

end CircuitsUart.Lib
