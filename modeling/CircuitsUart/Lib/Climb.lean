import Mathlib

/-!
# Climbing a path

A path is a list, its directories end at a separator. A climb visits the directory a path names
and then, as long as a visit finds nothing, the one above it, until the path is empty.

There are two definitions of the climb. `climb` computes it, with a bound on the visits, as a C
loop that shortens a string in place does. `Climbed` is the relation that a proof follows: one
constructor for a visit that finds something, one for a path that is used up, one for going on
above. `climbed_of_rooted` says that the loop comes to an end, and `Climbed.climb_eq` that the
length of the path is bound enough, so the bound never has to be mentioned again.

A path that does not begin with a separator is another matter: `beforeLast` finds no separator in
its last component, and what a loop does then depends on the language. Hence `beforeLast_rooted`,
which keeps a climb from a rooted path away from that case.
-/

set_option autoImplicit false

namespace CircuitsUart.Lib

variable {α σ : Type} (sep : α)

/-- The path itself, or a part of it that a separator ends. -/
def Above (dir path : List α) : Prop :=
  dir ≠ [] ∧ (dir = path ∨ ∃ rest, path = dir ++ sep :: rest)

variable [DecidableEq α]

/-- The part before the last separator. -/
def beforeLast : List α → Option (List α)
  | [] => none
  | a :: s =>
    match beforeLast s with
    | some front => some (a :: front)
    | none => if a = sep then some [] else none

/-- Visit the path and those above it, with at most so many visits. -/
def climb (visit : List α → σ → Bool × σ) : Nat → List α → σ → Option σ
  | 0, _, _ => none
  | fuel + 1, path, s =>
    if path = [] then some s
    else
      let (found, s) := visit path s
      if found then some s else climb visit fuel ((beforeLast sep path).getD path) s

/-- `Climbed sep visit path s s'`: the climb from `path` in the state `s` ends in `s'`. -/
inductive Climbed (visit : List α → σ → Bool × σ) : List α → σ → σ → Prop
  | top (s : σ) : Climbed visit [] s s
  | found {path : List α} {s s' : σ} (ne : path ≠ []) (here : visit path s = (true, s')) :
    Climbed visit path s s'
  | up {path parent : List α} {s s' t : σ} (ne : path ≠ []) (here : visit path s = (false, s'))
    (cut : beforeLast sep path = some parent) (above : Climbed visit parent s' t) :
    Climbed visit path s t

variable {sep}

/-! ## The part before the last separator -/

theorem beforeLast_eq_none {s : List α} : beforeLast sep s = none ↔ sep ∉ s := by
  induction s with
  | nil => simp [beforeLast]
  | cons a s ih =>
    unfold beforeLast
    split
    · next front cut =>
      have inside : sep ∈ s := by
        by_contra outside
        exact absurd (ih.mpr outside) (by simp [cut])
      simp [inside]
    · next uncut =>
      have outside := ih.mp uncut
      by_cases here : a = sep
      · simp [here]
      · simp [here, outside, Ne.symm here]

theorem eq_append_of_beforeLast {s front : List α} (cut : beforeLast sep s = some front) :
    ∃ last, s = front ++ sep :: last ∧ sep ∉ last := by
  induction s generalizing front with
  | nil => exact absurd cut (by simp [beforeLast])
  | cons a s ih =>
    unfold beforeLast at cut
    split at cut
    · next inner hs =>
      obtain rfl := Option.some.inj cut
      obtain ⟨last, rfl, outside⟩ := ih hs
      exact ⟨last, rfl, outside⟩
    · next hs =>
      split at cut
      · next here =>
        obtain rfl := Option.some.inj cut
        exact ⟨s, by rw [here]; rfl, beforeLast_eq_none.mp hs⟩
      · exact absurd cut (by simp)

theorem beforeLast_length {s front : List α} (cut : beforeLast sep s = some front) :
    front.length < s.length := by
  obtain ⟨last, rfl, -⟩ := eq_append_of_beforeLast cut
  rw [List.length_append, List.length_cons]
  omega

/-! ## What is above a path -/

omit [DecidableEq α] in
theorem Above.refl {path : List α} (ne : path ≠ []) : Above sep path path := ⟨ne, .inl rfl⟩

omit [DecidableEq α] in
theorem not_above_nil {dir : List α} : ¬ Above sep dir [] := by
  intro h
  obtain ⟨ne, same | ⟨rest, longer⟩⟩ := h
  · exact ne same
  · exact absurd longer (by simp)

omit [DecidableEq α] in
theorem Above.isPrefix {dir path : List α} (above : Above sep dir path) : dir <+: path := by
  obtain ⟨-, rfl | ⟨rest, rfl⟩⟩ := above
  · exact List.prefix_rfl
  · exact List.prefix_append _ _

omit [DecidableEq α] in
theorem Above.length_le {dir path : List α} (above : Above sep dir path) :
    dir.length ≤ path.length :=
  above.isPrefix.length_le

/-- What is above a path is the path, or above the part before its last separator. -/
theorem above_iff {dir path parent : List α} (ne : path ≠ [])
    (cut : beforeLast sep path = some parent) :
    Above sep dir path ↔ dir = path ∨ Above sep dir parent := by
  obtain ⟨last, rfl, outside⟩ := eq_append_of_beforeLast cut
  constructor
  · intro h
    obtain ⟨some_dir, same | ⟨rest, split⟩⟩ := h
    · exact .inl same
    · right
      obtain ⟨mid, rfl, short⟩ | ⟨mid, rfl, long⟩ := List.append_eq_append_iff.mp split
      · cases mid with
        | nil => exact ⟨some_dir, .inl (by simp)⟩
        | cons a mid =>
          obtain ⟨rfl, rfl⟩ := List.cons.inj short
          exact absurd (List.mem_append_right _ (List.mem_cons_self ..)) outside
      · cases mid with
        | nil => exact ⟨some_dir, .inl (by simp)⟩
        | cons a mid =>
          obtain ⟨rfl, rfl⟩ := List.cons.inj long
          exact ⟨some_dir, .inr ⟨mid, rfl⟩⟩
  · intro h
    obtain rfl | ⟨some_dir, rfl | ⟨rest, rfl⟩⟩ := h
    · exact .refl ne
    · exact ⟨some_dir, .inr ⟨last, rfl⟩⟩
    · exact ⟨some_dir, .inr ⟨rest ++ sep :: last, by simp⟩⟩

/-- A path that begins with a separator keeps doing so until it is empty. -/
theorem beforeLast_rooted {a : α} {path : List α} (root : a = sep) :
    ∃ parent, beforeLast sep (a :: path) = some parent ∧
      (parent = [] ∨ ∃ rest, parent = sep :: rest) := by
  cases cut : beforeLast sep (a :: path) with
  | none => exact absurd (beforeLast_eq_none.mp cut) (by simp [root])
  | some parent =>
    refine ⟨parent, rfl, ?_⟩
    obtain ⟨last, split, -⟩ := eq_append_of_beforeLast cut
    cases parent with
    | nil => exact .inl rfl
    | cons b rest =>
      obtain ⟨rfl, -⟩ := List.cons.inj split
      exact .inr ⟨rest, by rw [root]⟩

/-! ## The climb ends -/

variable {visit : List α → σ → Bool × σ}

/-- The climb from a path that begins with a separator ends. -/
theorem climbed_of_rooted (path : List α) (s : σ) :
    ∃ t, Climbed sep visit (sep :: path) s t := by
  induction h : path.length using Nat.strong_induction_on generalizing path s with
  | _ n ih =>
    subst h
    have ne : sep :: path ≠ [] := by simp
    cases here : visit (sep :: path) s with
    | mk found s' =>
      cases found with
      | true => exact ⟨s', .found ne here⟩
      | false =>
        obtain ⟨parent, cut, rfl | ⟨rest, rfl⟩⟩ := @beforeLast_rooted _ sep _ sep path rfl
        · exact ⟨s', .up ne here cut (.top s')⟩
        · have shorter := beforeLast_length cut
          obtain ⟨t, above⟩ := ih rest.length (by simpa using shorter) rest s' rfl
          exact ⟨t, .up ne here cut above⟩

/-- A climb that ends does so within as many visits as the path has elements. -/
theorem Climbed.climb_eq {path : List α} {s t : σ} (climbed : Climbed sep visit path s t)
    {fuel : Nat} (enough : path.length < fuel) : climb sep visit fuel path s = some t := by
  induction climbed generalizing fuel with
  | top s =>
    cases fuel with
    | zero => exact absurd enough (Nat.not_lt_zero _)
    | succ fuel => rfl
  | found ne here =>
    cases fuel with
    | zero => exact absurd enough (Nat.not_lt_zero _)
    | succ fuel =>
      unfold climb
      rw [if_neg ne, here]
      rfl
  | up ne here cut above ih =>
    cases fuel with
    | zero => exact absurd enough (Nat.not_lt_zero _)
    | succ fuel =>
      unfold climb
      rw [if_neg ne, here, cut]
      exact ih (by have := beforeLast_length cut; omega)

end CircuitsUart.Lib
