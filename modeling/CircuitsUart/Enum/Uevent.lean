import CircuitsUart.Enum.Sysfs
import CircuitsUart.Lib.Find

/-!
# The driver in a uevent file

A uevent file is made of lines `KEY=value`. `parse_uevent` looks for the letters of its key
anywhere in the file, skips one character, which would be the equal sign, and takes what is left
of the line. `taken` is what that gives for a line that has the letters first, whether they are
its key or not: where the line ends with them, the character is the newline, and the next line is
taken for the value; where the file does, it is the terminating zero.

A file is a list of lines here, and its text is computed, with the last newline there or not. The
search goes through the text all the same, and `Lib.Find` brings it down to lines: no key has a
newline in it, so an occurrence is within one line.

The condition that comes out, `Unambiguous`, allows what looks wrong and is not: a line that has
the letters elsewhere does no harm if what is taken for its value is the value by chance.
-/

set_option autoImplicit false

namespace CircuitsUart

open Lib

namespace Enum

/-! ## The file -/

/-- `'='`. -/
abbrev equals : UInt8 := 61

/-- A line `KEY=value`. -/
structure UeventLine where
  key : List UInt8
  value : List UInt8
  keyClean : ∀ c ∈ key, c ≠ equals ∧ c ≠ newline ∧ c ≠ 0
  valueClean : ∀ c ∈ value, c ≠ newline ∧ c ≠ 0

def UeventLine.text (line : UeventLine) : List UInt8 := line.key ++ equals :: line.value

/-- What stands behind a line, with the last newline there or not. -/
def ueventTail (ended : Bool) : List UeventLine → List UInt8
  | [] => if ended then [newline] else []
  | line :: rest => newline :: (line.text ++ ueventTail ended rest)

/-- The file. -/
def ueventText (ended : Bool) : List UeventLine → List UInt8
  | [] => []
  | line :: rest => line.text ++ ueventTail ended rest

/-! ## What is to be found, and what is -/

/-- The value of the first line with the key. -/
def lookup (key : List UInt8) (lines : List UeventLine) : Option (List UInt8) :=
  (lines.find? (·.key = key)).map UeventLine.value

/-- `location`, past the key and one more character, is at the terminating zero at most. -/
def ReadsWithin (contents key : List UInt8) : Prop :=
  ∀ location, strstr key contents = some location → key.length + 1 ≤ location.length

/-- `parse_uevent` finds the key, whatever is in memory behind the file. -/
structure FindsKey (key : List UInt8) (ended : Bool) (lines : List UeventLine) : Prop where
  within : ReadsWithin (ueventText ended lines) key
  value : ∀ beyond, Sysfs.parseUevent (ueventText ended lines) key beyond = lookup key lines

/-- What is taken for the value, where `post` is the rest of the line behind the letters: all but
one character, or the next line. -/
def taken (post : List UInt8) (rest : List UeventLine) : List UInt8 :=
  match post, rest with
  | _ :: value, _ => value
  | [], next :: _ => next.text
  | [], [] => []

/-- No line has the letters of the key, or the first that has them is the one with the key, or
what is taken in its place happens to be the value. -/
def Unambiguous (key : List UInt8) : List UeventLine → Prop
  | [] => True
  | line :: rest =>
    match behind key line.text with
    | none => Unambiguous key rest
    | some post => line.key = key ∨ lookup key rest = some (taken post rest)

/-! ## The search -/

theorem strstr_eq (key s : List UInt8) : strstr key s = (behind key s).map (key ++ ·) := by
  induction s with
  | nil =>
    unfold strstr behind
    split
    · next empty => rw [empty]; rfl
    · rfl
  | cons c s ih =>
    unfold strstr
    by_cases here : key <+: c :: s
    · rw [if_pos (List.isPrefixOf_iff_prefix.mpr here), behind_of_isPrefix here]
      exact congrArg some (List.prefix_iff_eq_append.mp here).symm
    · rw [if_neg (fun h => here (List.isPrefixOf_iff_prefix.mp h)), behind_cons_of_not here, ih]

theorem readsWithin_iff {contents key : List UInt8} :
    ReadsWithin contents key ↔ behind key contents ≠ some [] := by
  unfold ReadsWithin
  rw [strstr_eq]
  cases found : behind key contents with
  | none => simp
  | some post =>
    cases post with
    | nil => simp
    | cons c post => simp

theorem parseUevent_eq (contents key beyond : List UInt8) :
    Sysfs.parseUevent contents key beyond = (behind key contents).map fun post =>
      (if post = [] then Program.cString beyond else post.drop 1).takeWhile (· ≠ newline) := by
  unfold Sysfs.parseUevent
  rw [strstr_eq, Option.map_map]
  congr 1
  funext post
  cases post with
  | nil => simp
  | cons c post =>
    have room : ¬ (key ++ c :: post).length ≤ key.length := by simp
    simp only [Function.comp_apply, if_neg room, ← List.drop_drop, List.drop_left]
    simp

/-! ## Line by line -/

variable {key : List UInt8} {ended : Bool} {line : UeventLine} {rest : List UeventLine}

theorem UeventLine.clean (line : UeventLine) : ∀ c ∈ line.text, c ≠ newline := by
  intro c hc
  rcases List.mem_append.mp hc with hc | hc
  · exact (line.keyClean c hc).2.1
  · rcases List.mem_cons.mp hc with rfl | hc
    · decide
    · exact (line.valueClean c hc).1

theorem ueventTail_cases (ended : Bool) (rest : List UeventLine) :
    ueventTail ended rest = [] ∧ rest = [] ∨
      ueventTail ended rest = newline :: ueventText ended rest := by
  cases rest with
  | nil =>
    cases ended with
    | false => exact .inl ⟨rfl, rfl⟩
    | true => exact .inr rfl
  | cons next rest => exact .inr rfl

/-- The first occurrence is in the first line, or in one of the others. -/
theorem behind_ueventText (ne : key ≠ []) (clean : newline ∉ key) :
    behind key (ueventText ended (line :: rest)) =
      ((behind key line.text).map (· ++ ueventTail ended rest)).or
        (behind key (ueventText ended rest)) := by
  show behind key (line.text ++ ueventTail ended rest) = _
  rcases ueventTail_cases ended rest with ⟨tail, rfl⟩ | tail
  · have none_left : behind key (ueventText ended []) = none := if_neg ne
    rw [tail, none_left, List.append_nil]
    cases behind key line.text <;> simp
  · rw [tail, behind_append_cons ne clean]

/-- A value ends where its line does. -/
theorem takeWhile_line {value : List UInt8} (clean : ∀ c ∈ value, c ≠ newline) (ended : Bool)
    (rest : List UeventLine) :
    (value ++ ueventTail ended rest).takeWhile (· ≠ newline) = value := by
  rw [List.takeWhile_append_of_pos (by simpa using clean)]
  rcases ueventTail_cases ended rest with ⟨tail, -⟩ | tail <;> simp [tail]

/-- What is taken, where something is left to be taken. -/
theorem takeWhile_taken {post : List UInt8} (clean : ∀ c ∈ post, c ≠ newline)
    (left : post ++ ueventTail ended rest ≠ []) :
    ((post ++ ueventTail ended rest).drop 1).takeWhile (· ≠ newline) = taken post rest := by
  cases post with
  | cons c value =>
    exact takeWhile_line (fun c hc => clean c (List.mem_cons_of_mem _ hc)) ended rest
  | nil =>
    cases rest with
    | nil =>
      cases ended with
      | false => exact absurd rfl left
      | true => rfl
    | cons next rest => exact takeWhile_line next.clean ended rest

theorem behind_own (same : line.key = key) :
    behind key line.text = some (equals :: line.value) := by
  rw [UeventLine.text, same, behind_append_self]

theorem lookup_cons (other : line.key ≠ key) : lookup key (line :: rest) = lookup key rest := by
  unfold lookup
  rw [List.find?_cons_of_neg (by simpa using other)]

theorem lookup_own (same : line.key = key) : lookup key (line :: rest) = some line.value := by
  unfold lookup
  rw [List.find?_cons_of_pos (by simpa using same)]
  rfl

/-- The letters are in the first line. -/
theorem findsKey_here (ne : key ≠ []) (clean : newline ∉ key) {post : List UInt8}
    (found : behind key line.text = some post) :
    FindsKey key ended (line :: rest) ↔
      line.key = key ∨ lookup key rest = some (taken post rest) := by
  have whole : behind key (ueventText ended (line :: rest)) =
      some (post ++ ueventTail ended rest) := by
    rw [behind_ueventText ne clean, found]
    rfl
  have postClean : ∀ c ∈ post, c ≠ newline := fun c hc =>
    line.clean c ((behind_sound found).subset (List.mem_append_right key hc))
  have parsed : post ++ ueventTail ended rest ≠ [] → ∀ beyond,
      Sysfs.parseUevent (ueventText ended (line :: rest)) key beyond = some (taken post rest) := by
    intro left beyond
    rw [parseUevent_eq, whole, Option.map_some, if_neg left, takeWhile_taken postClean left]
  constructor
  · rintro ⟨within, value⟩
    by_cases same : line.key = key
    · exact .inl same
    · rw [readsWithin_iff, whole] at within
      have left : post ++ ueventTail ended rest ≠ [] := fun h => within (congrArg some h)
      rw [← lookup_cons same, ← value [], parsed left []]
      exact .inr rfl
  · intro clear
    have left : post ++ ueventTail ended rest ≠ [] := by
      rcases clear with same | coincident
      · obtain rfl := Option.some.inj (found.symm.trans (behind_own same))
        exact List.cons_ne_nil _ _
      · intro empty
        obtain ⟨-, tail⟩ := List.append_eq_nil_iff.mp empty
        rcases ueventTail_cases ended rest with ⟨-, rfl⟩ | tail'
        · exact absurd coincident (by simp [lookup])
        · exact absurd (tail.symm.trans tail') (by simp)
    refine ⟨?_, fun beyond => ?_⟩
    · rw [readsWithin_iff, whole]
      exact fun h => left (Option.some.inj h)
    · rw [parsed left]
      by_cases same : line.key = key
      · obtain rfl := Option.some.inj (found.symm.trans (behind_own same))
        exact (lookup_own same).symm
      · rw [lookup_cons same]
        exact (clear.resolve_left same).symm

/-- **When `parse_uevent` finds its key**, for any key without a newline. -/
theorem findsKey_iff (ne : key ≠ []) (clean : newline ∉ key) (ended : Bool)
    (lines : List UeventLine) : FindsKey key ended lines ↔ Unambiguous key lines := by
  induction lines with
  | nil =>
    have none_left : behind key (ueventText ended []) = none := if_neg ne
    refine iff_of_true ⟨?_, fun beyond => ?_⟩ trivial
    · rw [readsWithin_iff, none_left]
      simp
    · rw [parseUevent_eq, none_left]
      rfl
  | cons line rest ih =>
    unfold Unambiguous
    cases found : behind key line.text with
    | some post => exact findsKey_here ne clean found
    | none =>
      -- the line has no part in it
      have other : line.key ≠ key := fun same => by simp [behind_own same] at found
      have whole : behind key (ueventText ended (line :: rest)) =
          behind key (ueventText ended rest) := by
        rw [behind_ueventText ne clean, found]
        rfl
      rw [← ih]
      constructor
      · rintro ⟨within, value⟩
        rw [readsWithin_iff, whole] at within
        refine ⟨readsWithin_iff.mpr within, fun beyond => ?_⟩
        rw [← lookup_cons other, ← value beyond, parseUevent_eq, parseUevent_eq, whole]
      · rintro ⟨within, value⟩
        rw [readsWithin_iff] at within
        refine ⟨readsWithin_iff.mpr (by rwa [whole]), fun beyond => ?_⟩
        rw [lookup_cons other, ← value beyond, parseUevent_eq, parseUevent_eq, whole]

/-! ## The driver -/

/-- The key `get_driver` looks for. -/
def driverKey : List UInt8 := ascii "DRIVER"

/-- **When the driver is found.** For every file of lines `KEY=value`, `parse_uevent` gives the
value of the first line with the key `DRIVER`, or `NULL` if there is none, and reads nothing
behind the file: exactly when no line has these letters, or the first that has them is the one
with the key, or what is taken in its place happens to be the value. -/
theorem findsDriver_iff (ended : Bool) (lines : List UeventLine) :
    FindsKey driverKey ended lines ↔ Unambiguous driverKey lines :=
  findsKey_iff (by decide) (by decide) ended lines

set_option maxRecDepth 2000 in
/-- The driver of the parent comes first. -/
def parentDriver : List UeventLine :=
  [⟨ascii "PARENT_DRIVER", ascii "xhci", by decide, by decide⟩,
    ⟨driverKey, ascii "ftdi_sio", by decide, by decide⟩]

theorem not_findsDriver_parentDriver : ¬ FindsKey driverKey true parentDriver := by
  intro finds
  exact absurd (finds.value []) (by decide)

/-- Nothing follows the letters but the terminating zero. -/
example : ¬ ReadsWithin (ascii "PRODUCT=DRIVER") driverKey := by
  rw [readsWithin_iff, not_not]
  decide

end Enum

end CircuitsUart
