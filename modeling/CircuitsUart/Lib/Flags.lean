import Mathlib

/-!
# Words edited in place

Configuration words are edited by clearing some bits and setting others, over whatever the
word held before, and a device applies an edited word only in part. An `Edit` is such a
change: it clears the bits of `clear`, then sets those of `set`. Edits compose, and a
device that lets only the bits of `m` be set turns an edit into its restriction to `m`
(`applied_run`), so what a device holds after any number of rounds of read, edit and write
is one edit of what it held at first.

`run_and` decides some bits of an edited word: it pushes the mask inwards and takes out of
it what the edit decides. With closed masks the rest is computation. `run_andThen_eq_iff`
says when an edit hides an earlier one.

## Why edits and not functions

A chain of assignments to a word is a function from words to words, and two such functions can be
compared only word by word, of which there are `2 ^ 32`. An edit has two masks. Whether one edit
hides another, or touches a bit at all, is a question about four masks, and where these are
constants it is decided by computing them. So the theorems that use this quantify over every prior
word and every device, and their proofs do not split on either.
-/

set_option autoImplicit false

namespace CircuitsUart.Lib

variable {n : Nat}

/-- Clear the bits of `clear`, then set those of `set`. -/
structure Edit (n : Nat) where
  clear : BitVec n
  set : BitVec n
  deriving DecidableEq

namespace Edit

def run (e : Edit n) (w : BitVec n) : BitVec n := (w &&& ~~~e.clear) ||| e.set

/-- `e`, and then `f`. -/
def andThen (e f : Edit n) : Edit n := ⟨e.clear ||| f.clear, (e.set &&& ~~~f.clear) ||| f.set⟩

/-- What is left of an edit when only the bits of `m` can change. -/
def restrict (m : BitVec n) (e : Edit n) : Edit n := ⟨e.clear &&& m, e.set &&& m⟩

/-- The bits an edit may change. -/
def touched (e : Edit n) : BitVec n := e.clear ||| e.set

/-- The edit that changes nothing. -/
def nothing : Edit n := ⟨0#n, 0#n⟩

@[simp] theorem run_nothing (w : BitVec n) : nothing.run w = w := by
  simp [run, nothing]

@[simp] theorem restrict_nothing (m : BitVec n) : nothing.restrict m = nothing := by
  simp [restrict, nothing]

@[simp] theorem andThen_nothing (e : Edit n) : e.andThen nothing = e := by
  simp [andThen, nothing]

@[simp] theorem run_setting (s w : BitVec n) : (Edit.mk 0#n s).run w = w ||| s := by
  simp [run]

@[simp] theorem run_clearing (c w : BitVec n) : (Edit.mk c 0#n).run w = w &&& ~~~c := by
  simp [run]

theorem getElem_run (e : Edit n) (w : BitVec n) {i : Nat} (hi : i < n) :
    (e.run w)[i] = (w[i] && !e.clear[i] || e.set[i]) := by
  simp [run]

theorem run_and (e : Edit n) (w k : BitVec n) :
    e.run w &&& k = (w &&& (k &&& ~~~e.clear)) ||| (e.set &&& k) := by
  ext i hi
  simp only [BitVec.getElem_and, BitVec.getElem_or, BitVec.getElem_not, getElem_run]
  grind

/-- Some bits of an edited word depend on no others. -/
theorem run_and_congr (e : Edit n) {w w' k : BitVec n} (h : w &&& k = w' &&& k) :
    e.run w &&& k = e.run w' &&& k := by
  have inner : ∀ w : BitVec n, w &&& (k &&& ~~~e.clear) = w &&& k &&& ~~~e.clear :=
    fun w => (BitVec.and_assoc ..).symm
  rw [run_and, run_and, inner, inner, h]

/-- Bits an edit clears are then only what it sets. -/
theorem run_and_of_cleared (e : Edit n) (w : BitVec n) {k : BitVec n}
    (cleared : k &&& ~~~e.clear = 0#n) : e.run w &&& k = e.set &&& k := by
  rw [run_and, cleared]
  simp

/-- Bits an edit sets are set. -/
theorem run_and_of_set (e : Edit n) (w : BitVec n) {k : BitVec n} (set : e.set &&& k = k) :
    e.run w &&& k = k := by
  rw [run_and, set]
  ext i hi
  simp only [BitVec.getElem_or, BitVec.getElem_and]
  grind

/-- Bits an edit does not touch stay. -/
theorem run_and_of_untouched (e : Edit n) (w : BitVec n) {k : BitVec n} (clear : e.clear &&& k = 0#n)
    (set : e.set &&& k = 0#n) : e.run w &&& k = w &&& k := by
  have kept : k &&& ~~~e.clear = k := by
    ext i hi
    have bit := congrArg (fun w => w.getLsbD i) clear
    simp only [BitVec.getLsbD_eq_getElem hi, BitVec.getElem_and, BitVec.getElem_zero] at bit
    simp only [BitVec.getElem_and, BitVec.getElem_not]
    grind
  rw [run_and, set, kept]
  simp

theorem run_andThen (e f : Edit n) (w : BitVec n) : (e.andThen f).run w = f.run (e.run w) := by
  ext i hi
  simp only [andThen, getElem_run, BitVec.getElem_and, BitVec.getElem_or, BitVec.getElem_not]
  grind

theorem restrict_andThen (m : BitVec n) (e f : Edit n) :
    (e.andThen f).restrict m = (e.restrict m).andThen (f.restrict m) := by
  have set_eq : (e.andThen f).set &&& m =
      (e.set &&& m &&& ~~~(f.clear &&& m)) ||| (f.set &&& m) := by
    ext i hi
    simp only [andThen, BitVec.getElem_and, BitVec.getElem_or, BitVec.getElem_not]
    grind
  have clear_eq : (e.clear ||| f.clear) &&& m = (e.clear &&& m) ||| (f.clear &&& m) := by
    ext i hi
    simp only [BitVec.getElem_and, BitVec.getElem_or]
    grind
  simp only [restrict, set_eq]
  simp only [andThen, clear_eq]

theorem touched_andThen (e f : Edit n) : (e.andThen f).touched = e.touched ||| f.touched := by
  ext i hi
  simp only [touched, andThen, BitVec.getElem_and, BitVec.getElem_or, BitVec.getElem_not]
  grind

/-- **An edit hides an earlier one iff the bits it does not touch were as the earlier one
leaves them.** -/
theorem run_andThen_eq_iff (e f : Edit n) (w : BitVec n) :
    (e.andThen f).run w = f.run w ↔
      e.run w &&& (e.touched &&& ~~~f.touched) = w &&& (e.touched &&& ~~~f.touched) := by
  rw [run_andThen]
  constructor
  · intro h
    ext i hi
    have bit := congrArg (fun w => w.getLsbD i) h
    simp only [BitVec.getLsbD_eq_getElem hi, getElem_run] at bit
    simp only [touched, BitVec.getElem_and, BitVec.getElem_or, BitVec.getElem_not, getElem_run]
    grind
  · intro h
    ext i hi
    have bit := congrArg (fun w => w.getLsbD i) h
    simp only [BitVec.getLsbD_eq_getElem hi, touched, BitVec.getElem_and, BitVec.getElem_or,
      BitVec.getElem_not, getElem_run] at bit
    simp only [getElem_run]
    grind

/-- An edit that is not undone by a later one of other bits changes nothing if both do. -/
theorem run_eq_of_andThen {e f : Edit n} (disjoint : e.touched &&& f.touched = 0#n) {w : BitVec n}
    (h : (e.andThen f).run w = w) : e.run w = w := by
  rw [run_andThen] at h
  ext i hi
  have bit := congrArg (fun w => w.getLsbD i) h
  have apart := congrArg (fun w => w.getLsbD i) disjoint
  simp only [BitVec.getLsbD_eq_getElem hi, getElem_run] at bit
  simp only [BitVec.getLsbD_eq_getElem hi, touched, BitVec.getElem_and, BitVec.getElem_or,
    BitVec.getElem_zero] at apart
  simp only [getElem_run]
  grind

/-- A restricted edit touches no more. -/
theorem restrict_touched_disjoint {e f : Edit n} (m : BitVec n)
    (disjoint : e.touched &&& f.touched = 0#n) :
    (e.restrict m).touched &&& (f.restrict m).touched = 0#n := by
  ext i hi
  have apart := congrArg (fun w => w.getLsbD i) disjoint
  simp only [BitVec.getLsbD_eq_getElem hi, touched, BitVec.getElem_and, BitVec.getElem_or,
    BitVec.getElem_zero] at apart
  simp only [touched, restrict, BitVec.getElem_and, BitVec.getElem_or, BitVec.getElem_zero]
  grind

/-- The same, through a device that lets only the bits of `m` change. -/
theorem restrict_andThen_eq_iff (m : BitVec n) (e f : Edit n) (w : BitVec n) :
    ((e.andThen f).restrict m).run w = (f.restrict m).run w ↔
      e.run w &&& (e.touched &&& ~~~f.touched &&& m) =
        w &&& (e.touched &&& ~~~f.touched &&& m) := by
  have mask : (e.restrict m).touched &&& ~~~(f.restrict m).touched =
      e.touched &&& ~~~f.touched &&& m := by
    ext i hi
    simp only [touched, restrict, BitVec.getElem_and, BitVec.getElem_or, BitVec.getElem_not]
    grind
  have inside : (e.restrict m).run w &&& (e.touched &&& ~~~f.touched &&& m) =
      e.run w &&& (e.touched &&& ~~~f.touched &&& m) := by
    ext i hi
    simp only [restrict, getElem_run, BitVec.getElem_and, BitVec.getElem_not]
    grind
  rw [restrict_andThen, run_andThen_eq_iff, mask, inside]

end Edit

/-- What a device that held `w` holds after it is given `r`, when only the bits of `m` can
change. -/
def applied (m w r : BitVec n) : BitVec n := (w &&& ~~~m) ||| (r &&& m)

theorem applied_run (m w : BitVec n) (e : Edit n) : applied m w (e.run w) = (e.restrict m).run w := by
  ext i hi
  simp only [applied, Edit.restrict, Edit.getElem_run, BitVec.getElem_and, BitVec.getElem_or,
    BitVec.getElem_not]
  grind

/-- What two words left on a device agree on is what they agreed on among the bits it lets
change. -/
theorem applied_and_eq_iff (m w r r' k : BitVec n) :
    applied m w r &&& k = applied m w r' &&& k ↔ r &&& k &&& m = r' &&& k &&& m := by
  constructor
  · intro h
    ext i hi
    have bit := congrArg (fun w => w.getLsbD i) h
    simp only [BitVec.getLsbD_eq_getElem hi, applied, BitVec.getElem_and, BitVec.getElem_or,
      BitVec.getElem_not] at bit
    simp only [BitVec.getElem_and]
    grind
  · intro h
    ext i hi
    have bit := congrArg (fun w => w.getLsbD i) h
    simp only [BitVec.getLsbD_eq_getElem hi, BitVec.getElem_and] at bit
    simp only [applied, BitVec.getElem_and, BitVec.getElem_or, BitVec.getElem_not]
    grind

theorem applied_and_of_subset {m k : BitVec n} (sub : m &&& k = k) (w r : BitVec n) :
    applied m w r &&& k = r &&& k := by
  ext i hi
  have bit := congrArg (fun w => w.getLsbD i) sub
  simp only [BitVec.getLsbD_eq_getElem hi, BitVec.getElem_and] at bit
  simp only [applied, BitVec.getElem_and, BitVec.getElem_or, BitVec.getElem_not]
  grind

/-- Disjoint words that agree on the bits of `m` have none of them. -/
theorem or_and_eq_zero {x y m : BitVec n} (disjoint : x &&& y = 0#n) (h : x &&& m = y &&& m) :
    (x ||| y) &&& m = 0#n := by
  ext i hi
  have bit := congrArg (fun w => w.getLsbD i) disjoint
  have bit' := congrArg (fun w => w.getLsbD i) h
  simp only [BitVec.getLsbD_eq_getElem hi, BitVec.getElem_and, BitVec.getElem_zero] at bit bit'
  simp only [BitVec.getElem_and, BitVec.getElem_or, BitVec.getElem_zero]
  grind

/-- Bits taken from `t` are none of those of a `k` that has nothing of `t`. -/
theorem and_eq_zero_of_subset {c t k : BitVec n} (sub : c &&& t = c) (disjoint : t &&& k = 0#n) :
    c &&& k = 0#n := by
  rw [← sub, BitVec.and_assoc, disjoint]
  simp

/-- Setting bits changes nothing iff they were set. -/
theorem or_eq_self_iff {w k : BitVec n} : w ||| k = w ↔ w &&& k = k := by
  constructor
  · intro h
    rw [← h, BitVec.and_comm]
    ext i hi
    simp only [BitVec.getElem_and, BitVec.getElem_or]
    grind
  · intro h
    rw [← h]
    ext i hi
    simp only [BitVec.getElem_and, BitVec.getElem_or]
    grind

/-- Words that agree on some bits agree on fewer. -/
theorem and_eq_of_subset {a b k k' : BitVec n} (h : a &&& k = b &&& k) (sub : k' &&& k = k') :
    a &&& k' = b &&& k' := by
  rw [← sub, BitVec.and_comm k', ← BitVec.and_assoc, h, BitVec.and_assoc]

end CircuitsUart.Lib
