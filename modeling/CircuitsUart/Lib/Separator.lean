import Mathlib

/-!
# Splitting a stream at a separator

What it means to split a stream at the **leftmost non-overlapping occurrences** of a
separator, stated by positions and independently of any algorithm that does it.

The stream's elements are compared with the separator's through a projection `f : β → α`,
so that a stream whose elements carry more than what is compared (where each element came
from, say) is split by the same definition.

`Split` is a relation and has two constructors: no occurrence, or a cut at the first one and a split
of what follows. An occurrence is first if none begins before it, which says nothing of how it was
looked for; a decoder that keeps half a separator in a buffer and one that sees the whole stream
are held to the same thing. The lemmas about bytes put in front are for the former.
-/

set_option autoImplicit false

namespace CircuitsUart.Lib

variable {α β : Type} (f : β → α) (sep : List α)

/-- `s` begins with the separator. -/
def StartsWith (s : List β) : Prop := (s.take sep.length).map f = sep

instance [DecidableEq α] (s : List β) : Decidable (StartsWith f sep s) :=
  inferInstanceAs (Decidable (_ = _))

/-- `Split f sep s lines rest`: cutting `s` at the leftmost occurrence of the separator,
then what follows it at its leftmost occurrence, and so on, leaves the pieces `lines`
before the occurrences and `rest` after the last one. -/
inductive Split : List β → List (List β) → List β → Prop
  | rest {s : List β} (none : ∀ i, i ≤ s.length → ¬ StartsWith f sep (s.drop i)) : Split s [] s
  | cut {s r : List β} {ls : List (List β)} (n : Nat) (le : n ≤ s.length)
      (here : StartsWith f sep (s.drop n)) (leftmost : ∀ i, i < n → ¬ StartsWith f sep (s.drop i))
      (tail : Split (s.drop (n + sep.length)) ls r) : Split s (s.take n :: ls) r

variable {f sep}

theorem StartsWith.length_le {s : List β} (h : StartsWith f sep s) : sep.length ≤ s.length := by
  have := congrArg List.length h
  simp only [List.length_map, List.length_take] at this
  omega

/-- Whether a list begins with the separator is decided by its first bytes. -/
theorem startsWith_append {s t : List β} (hs : sep.length ≤ s.length) :
    StartsWith f sep (s ++ t) ↔ StartsWith f sep s := by
  unfold StartsWith
  rw [List.take_append_of_le_length hs]

theorem StartsWith.append {s t : List β} (h : StartsWith f sep s) : StartsWith f sep (s ++ t) :=
  (startsWith_append h.length_le).mpr h

/-- With no occurrence beginning inside `p`, an occurrence in `p ++ s` is one in `s`. -/
theorem startsWith_drop_prepend {p s : List β} {i : Nat}
    (hp : ∀ i, i < p.length → ¬ StartsWith f sep ((p ++ s).drop i))
    (h : StartsWith f sep ((p ++ s).drop i)) :
    p.length ≤ i ∧ StartsWith f sep (s.drop (i - p.length)) := by
  have hle : p.length ≤ i := Nat.le_of_not_lt fun hlt => hp i hlt h
  rw [List.drop_append, List.drop_eq_nil_of_le hle, List.nil_append] at h
  exact ⟨hle, h⟩

/-- Bytes put in front of a stream that has no piece join its rest. -/
theorem Split.prepend_rest {p s r : List β} (h : Split f sep s [] r)
    (hp : ∀ i, i < p.length → ¬ StartsWith f sep ((p ++ s).drop i)) :
    Split f sep (p ++ s) [] (p ++ r) := by
  cases h with
  | rest none =>
    refine .rest fun i hi hst => ?_
    obtain ⟨hle, hst'⟩ := startsWith_drop_prepend hp hst
    exact none (i - p.length) (by simp at hi; omega) hst'

/-- Bytes put in front of a stream that has a piece join its first piece. -/
theorem Split.prepend_cut {p s l r : List β} {ls : List (List β)} (h : Split f sep s (l :: ls) r)
    (hp : ∀ i, i < p.length → ¬ StartsWith f sep ((p ++ s).drop i)) :
    Split f sep (p ++ s) ((p ++ l) :: ls) r := by
  cases h with
  | cut n le here leftmost tail =>
    have htake : (p ++ s).take (p.length + n) = p ++ s.take n := by
      rw [List.take_append, List.take_of_length_le (by omega), Nat.add_sub_cancel_left]
    have hdrop : ∀ k, (p ++ s).drop (p.length + k) = s.drop k := fun k => by
      rw [List.drop_append, List.drop_eq_nil_of_le (by omega), List.nil_append,
        Nat.add_sub_cancel_left]
    rw [← htake]
    refine .cut (p.length + n) (by simp; omega) (by rwa [hdrop]) (fun i hi hst => ?_)
      (by rwa [Nat.add_assoc, hdrop])
    obtain ⟨hle, hst'⟩ := startsWith_drop_prepend hp hst
    exact leftmost (i - p.length) (by omega) hst'

/-- A stream that does not begin with the separator has a first piece that is not empty. -/
theorem Split.head_ne_nil {s l r : List β} {ls : List (List β)} (h : Split f sep s (l :: ls) r)
    (hsep : sep ≠ []) (hs : ¬ StartsWith f sep s) : l ≠ [] := by
  cases h with
  | cut n le here leftmost tail =>
    have hn : n ≠ 0 := by rintro rfl; exact hs here
    have hpos := here.length_le
    intro hnil
    rcases List.take_eq_nil_iff.mp hnil with h0 | h0
    · exact hn h0
    · subst h0
      exact hsep (by simpa using hpos)

end CircuitsUart.Lib
