import CircuitsUart.Enum.Uevent

/-!
# Vendor and product ids on Windows

`parse_device_id` copies the four characters behind a prefix of a device instance id into a
buffer of five bytes, and gives the buffer to `strtol`. Nothing writes the fifth byte. `strtol`
stops at the first character that is no part of a number: among the four if there is one, at the
end of the string if that was copied, and otherwise somewhere in the bytes that the stack held
before. A string that ends sooner is copied from beyond its end.

What memory holds is an argument, `Memory`, and a number is read exactly if it is the same for all
of them and is the one that is written. So nothing has to be assumed of what the stack held, and a
proof that a condition is necessary may choose it: `parseDeviceId_leftover` puts a digit in the
fifth byte, where that makes another number.

`strtol` is computed as a fold over digits behind blanks, a sign and a base. The lemmas about
characters that are appended are for the four in front of memory.
-/

set_option autoImplicit false

namespace CircuitsUart

open Lib Port

namespace Enum

/-! ## `uart_enum_win.c` -/

/-- `strtol(s, NULL, 16)` with a `long` of 32 bits. -/
def strtolLong (s : List UInt8) : Int := max (-2 ^ 31) (min (2 ^ 31 - 1) (strtol16 s))

/-- `parse_device_id`, with what is in memory behind the string, and behind the bytes copied into
the buffer. -/
def parseDeviceId (instanceId identifierPrefix : List UInt8) (identifierSize : Nat)
    (beyond leftover : List UInt8) : Int :=
  match strstr identifierPrefix instanceId with
  | none => 0
  | some loc =>
    let copied := (loc.drop identifierPrefix.length ++ 0 :: beyond).take identifierSize
    strtolLong (copied ++ leftover)

/-- What is in memory before the call: behind the string, and behind each buffer's four bytes. -/
structure Memory where
  beyond : List UInt8 := []
  first : List UInt8 := []
  second : List UInt8 := []

/-- The number behind one prefix, or behind another if that is 0. -/
def deviceNumber (first second : List UInt8) (memory : Memory) (instanceId : List UInt8) : Int :=
  let result := parseDeviceId instanceId first 4 memory.beyond memory.first
  if result = 0 then parseDeviceId instanceId second 4 memory.beyond memory.second else result

/-- `device_vid`. -/
def deviceVid : Memory → List UInt8 → Int := deviceNumber (ascii "VID_") (ascii "VEN_")

/-- `device_pid`. -/
def devicePid : Memory → List UInt8 → Int := deviceNumber (ascii "PID_") (ascii "DEV_")

/-! ## What `strtol` reads -/

def isBlank (c : UInt8) : Bool := c = 32 ∨ (9 ≤ c ∧ c ≤ 13)

def skipSign (s : List UInt8) : List UInt8 :=
  if s.head? = some 45 ∨ s.head? = some 43 then s.drop 1 else s

def skipBase (s : List UInt8) : List UInt8 :=
  if s.take 2 = ascii "0x" ∨ s.take 2 = ascii "0X" then s.drop 2 else s

/-- What is behind the blanks, the sign and the base. -/
def numeral (s : List UInt8) : List UInt8 := skipBase (skipSign (s.dropWhile isBlank))

def isNegative (s : List UInt8) : Bool := (s.dropWhile isBlank).head? = some 45

/-- A number with one more digit. -/
def digitStep (n : Int) (digit : Option Nat) : Int := 16 * n + (digit.getD 0 : Nat)

/-- The number the leading hexadecimal digits write. -/
def hexValue (s : List UInt8) : Int :=
  ((s.map strtol16.hexDigit).takeWhile Option.isSome).foldl digitStep 0

theorem strtol16_eq (s : List UInt8) : strtol16 s =
    if isNegative s then max (-hexValue (numeral s)) (-2 ^ 63)
    else min (hexValue (numeral s)) (2 ^ 63 - 1) := by
  unfold strtol16 isNegative numeral skipBase skipSign hexValue isBlank digitStep
  simp

/-- A character that ends a number. -/
def Stops (s : List UInt8) : Prop := ∃ c ∈ numeral s, strtol16.hexDigit c = none

instance (s : List UInt8) : Decidable (Stops s) := inferInstanceAs (Decidable (∃ c ∈ _, _))

theorem hexValue_append {t : List UInt8} (stops : ∃ c ∈ t, strtol16.hexDigit c = none)
    (u : List UInt8) : hexValue (t ++ u) = hexValue t := by
  obtain ⟨c, hc, none_there⟩ := stops
  have short : ((t.map strtol16.hexDigit).takeWhile Option.isSome).length ≠
      (t.map strtol16.hexDigit).length := by
    intro whole
    have all := List.takeWhile_eq_self_iff.mp
      ((List.takeWhile_prefix Option.isSome).eq_of_length whole)
    have digit := all _ (List.mem_map_of_mem hc)
    rw [none_there] at digit
    exact absurd digit (by simp)
  unfold hexValue
  rw [List.map_append, List.takeWhile_append, if_neg short]

theorem hexValue_concat {t : List UInt8} (digits : ∀ c ∈ t, strtol16.hexDigit c ≠ none)
    {d : UInt8} {k : Nat} (digit : strtol16.hexDigit d = some k) :
    hexValue (t ++ [d]) = 16 * hexValue t + k := by
  have all : ∀ x ∈ t.map strtol16.hexDigit, x.isSome = true := by
    intro x hx
    obtain ⟨c, hc, rfl⟩ := List.mem_map.mp hx
    exact Option.isSome_iff_ne_none.mpr (digits c hc)
  unfold hexValue
  rw [List.map_append, List.takeWhile_append_of_pos all, List.takeWhile_eq_self_iff.mpr all,
    List.map_singleton, digit]
  simp [digitStep]

theorem hexDigit_lt {c : UInt8} {k : Nat} (digit : strtol16.hexDigit c = some k) : k < 16 := by
  unfold strtol16.hexDigit at digit
  simp only [UInt8.le_iff_toNat_le] at digit
  split at digit
  · obtain rfl := Option.some.inj digit
    simp_all
    omega
  split at digit
  · obtain rfl := Option.some.inj digit
    simp_all
    omega
  split at digit
  · obtain rfl := Option.some.inj digit
    simp_all
    omega
  · exact absurd digit (by simp)

/-- Digits are worth less than the base to the power of their number. -/
theorem foldl_digits {digits : List (Option Nat)} (small : ∀ d ∈ digits, d.getD 0 < 16) {n : Int}
    (nonneg : 0 ≤ n) :
    0 ≤ digits.foldl digitStep n ∧ digits.foldl digitStep n < (n + 1) * 16 ^ digits.length := by
  induction digits generalizing n with
  | nil => simpa using nonneg
  | cons d digits ih =>
    obtain ⟨here, rest⟩ := List.forall_mem_cons.mp small
    have next := ih rest (show 0 ≤ digitStep n d by unfold digitStep; omega)
    refine ⟨next.1, next.2.trans_le ?_⟩
    calc (16 * n + (d.getD 0 : Nat) + 1) * 16 ^ digits.length
        ≤ ((n + 1) * 16) * 16 ^ digits.length := by
          apply Int.mul_le_mul_of_nonneg_right (by omega) (by positivity)
      _ = (n + 1) * 16 ^ (d :: digits).length := by
          rw [List.length_cons, pow_succ]
          ring

theorem hexValue_bounds (t : List UInt8) : 0 ≤ hexValue t ∧ hexValue t < 16 ^ t.length := by
  have small : ∀ d ∈ (t.map strtol16.hexDigit).takeWhile Option.isSome, d.getD 0 < 16 := by
    intro d hd
    obtain ⟨c, -, hc⟩ := List.mem_map.mp ((List.takeWhile_prefix _).subset hd)
    cases d with
    | none => decide
    | some k => exact hexDigit_lt hc
  have length : ((t.map strtol16.hexDigit).takeWhile Option.isSome).length ≤ t.length := by
    simpa using (List.takeWhile_prefix (Option.isSome (α := Nat))
      (l := t.map strtol16.hexDigit)).length_le
  obtain ⟨nonneg, lt⟩ := foldl_digits small le_rfl
  refine ⟨nonneg, lt.trans_le ?_⟩
  rw [zero_add, one_mul]
  exact pow_le_pow_right₀ (by decide) length

/-! ## What is read of characters that are appended -/

theorem skipSign_append {s : List UInt8} (ne : s ≠ []) (u : List UInt8) :
    skipSign (s ++ u) = skipSign s ++ u := by
  cases s with
  | nil => exact absurd rfl ne
  | cons c s =>
    unfold skipSign
    rw [List.cons_append]
    simp only [List.head?_cons, List.drop_succ_cons, List.drop_zero]
    split <;> rfl

theorem skipBase_append {s : List UInt8} (two : 2 ≤ s.length) (u : List UInt8) :
    skipBase (s ++ u) = skipBase s ++ u := by
  unfold skipBase
  rw [List.take_append_of_le_length two]
  split
  · rw [List.drop_append_of_le_length two]
  · rfl

/-- A single character is no base, whatever follows it, if it is no digit. -/
theorem skipBase_cons {c : UInt8} (other : strtol16.hexDigit c = none) (u : List UInt8) :
    skipBase (c :: u) = c :: u := by
  have zero : c ≠ 48 := by
    rintro rfl
    exact absurd other (by decide)
  unfold skipBase
  rw [if_neg]
  rintro (h | h)
  · exact zero (List.cons.inj h).1
  · exact zero (List.cons.inj h).1

/-- **Behind a character that ends the number, nothing matters.** -/
theorem Stops.strtol16_append {s : List UInt8} (stops : Stops s) (u : List UInt8) :
    strtol16 (s ++ u) = strtol16 s := by
  have stops' := stops
  obtain ⟨c, hc, other⟩ := stops
  have signed : skipSign (s.dropWhile isBlank) ≠ [] := by
    intro empty
    rw [numeral, empty] at hc
    exact absurd hc (by simp [skipBase])
  have text : s.dropWhile isBlank ≠ [] := by
    intro empty
    rw [empty] at signed
    exact signed (by simp [skipSign])
  have blanks : (s ++ u).dropWhile isBlank = s.dropWhile isBlank ++ u := by
    rw [List.dropWhile_append, if_neg (by simpa using text)]
  have tail : numeral (s ++ u) = numeral s ++ u := by
    unfold numeral at hc ⊢
    rw [blanks, skipSign_append text]
    cases rest : skipSign (s.dropWhile isBlank) with
    | nil => exact absurd rest signed
    | cons c' t =>
      cases t with
      | nil =>
        rw [rest] at hc
        have single : skipBase [c'] = [c'] := by simp [skipBase, ascii]
        obtain rfl : c = c' := by simpa [single] using hc
        rw [single]
        exact skipBase_cons other u
      | cons c'' t => exact skipBase_append (by simp) u
  have sign : isNegative (s ++ u) = isNegative s := by
    unfold isNegative
    rw [blanks, List.head?_append_of_ne_nil _ text]
  rw [strtol16_eq, strtol16_eq, tail, sign, hexValue_append stops']

/-- A character that is neither a blank nor a sign, nor part of a base. -/
def Plain (d : UInt8) : Prop :=
  isBlank d = false ∧ d ≠ 45 ∧ d ≠ 43 ∧ d ≠ 48 ∧ d ≠ 120 ∧ d ≠ 88

instance (d : UInt8) : Decidable (Plain d) := inferInstanceAs (Decidable (_ ∧ _))

/-- A plain character changes nothing of what is in front of it. -/
theorem numeral_append {d : UInt8} (plain : Plain d) (s u : List UInt8) :
    numeral (s ++ d :: u) = numeral s ++ d :: u ∧ isNegative (s ++ d :: u) = isNegative s := by
  obtain ⟨notBlank, minus, plus, zero, small, large⟩ := plain
  have blanks : (s ++ d :: u).dropWhile isBlank = s.dropWhile isBlank ++ d :: u := by
    rw [List.dropWhile_append]
    split
    · next empty =>
      rw [List.isEmpty_iff.mp empty, List.dropWhile_cons_of_neg (by simp [notBlank])]
      rfl
    · rfl
  have sign : ∀ t : List UInt8, skipSign (t ++ d :: u) = skipSign t ++ d :: u := by
    intro t
    cases t with
    | nil => simp [skipSign, minus, plus]
    | cons c t => exact skipSign_append (by simp) (d :: u)
  have base : ∀ t : List UInt8, skipBase (t ++ d :: u) = skipBase t ++ d :: u := by
    intro t
    match t with
    | [] => simp [skipBase, ascii, zero]
    | [c] => simp [skipBase, ascii, small, large]
    | c :: c' :: t => exact skipBase_append (by simp) (d :: u)
  constructor
  · unfold numeral
    rw [blanks, sign, base]
  · unfold isNegative
    rw [blanks]
    cases s.dropWhile isBlank with
    | nil => simp [minus]
    | cons c t => rfl

/-- **A string ends at its zero.** -/
theorem strtol16_zero (s u : List UInt8) : strtol16 (s ++ 0 :: u) = strtol16 s := by
  obtain ⟨tail, sign⟩ := numeral_append (show Plain 0 by decide) s u
  have value : hexValue (numeral s ++ 0 :: u) = hexValue (numeral s) := by
    have ends : strtol16.hexDigit 0 = none := by decide
    unfold hexValue
    rw [List.map_append, List.map_cons, ends, List.takeWhile_append]
    split
    · next whole =>
      rw [List.takeWhile_cons_of_neg (by simp), List.append_nil,
        (List.takeWhile_prefix Option.isSome).eq_of_length whole]
    · rfl
  rw [strtol16_eq, strtol16_eq, tail, sign, value]

theorem length_numeral_le (s : List UInt8) : (numeral s).length ≤ s.length := by
  have blanks : (s.dropWhile isBlank).length ≤ s.length := (List.dropWhile_suffix _).length_le
  have sign : ∀ t : List UInt8, (skipSign t).length ≤ t.length := by
    intro t
    unfold skipSign
    split
    · simp
    · exact le_rfl
  have base : ∀ t : List UInt8, (skipBase t).length ≤ t.length := by
    intro t
    unfold skipBase
    split
    · simp
    · exact le_rfl
  exact ((base _).trans (sign _)).trans blanks

/-- **A digit more makes another number**, not 0, where nothing ended the number before. -/
theorem strtolLong_concat {s : List UInt8} (short : s.length ≤ 4) (runs : ¬ Stops s) {d : UInt8}
    (plain : Plain d) {k : Nat} (digit : strtol16.hexDigit d = some k) :
    strtolLong (s ++ [d]) =
      if isNegative s then -(16 * hexValue (numeral s) + k) else 16 * hexValue (numeral s) + k := by
  have digits : ∀ c ∈ numeral s, strtol16.hexDigit c ≠ none := by
    intro c hc other
    exact runs ⟨c, hc, other⟩
  have length : (numeral s).length ≤ 4 := (length_numeral_le s).trans short
  obtain ⟨nonneg, lt⟩ := hexValue_bounds (numeral s)
  have small : hexValue (numeral s) < 65536 :=
    lt.trans_le (pow_le_pow_right₀ (by decide : (1 : Int) ≤ 16) length)
  have k_lt := hexDigit_lt digit
  obtain ⟨tail, sign⟩ := numeral_append plain s []
  unfold strtolLong
  rw [strtol16_eq, tail, sign, hexValue_concat digits digit]
  split <;> omega

/-! ## What is to be read -/

/-- The number written by the four characters behind the first occurrence of a prefix, as `strtol`
reads them alone; 0 if there is none. -/
def numberBehind (identifierPrefix instanceId : List UInt8) : Int :=
  match behind identifierPrefix instanceId with
  | none => 0
  | some post => strtolLong (post.take 4)

/-- The number behind one prefix, or behind another if that is 0. -/
def idNumber (first second instanceId : List UInt8) : Int :=
  if numberBehind first instanceId = 0 then numberBehind second instanceId
  else numberBehind first instanceId

/-- The four characters that are copied are in the string, its terminating zero included. -/
def CopiesWithin (identifierPrefix instanceId : List UInt8) : Prop :=
  ∀ loc, strstr identifierPrefix instanceId = some loc →
    4 ≤ (loc.drop identifierPrefix.length).length + 1

/-- The id is read exactly, whatever is in memory: no copy that is made leaves the string, and
the number is the one that is written in it. -/
structure ReadsId (device : Memory → List UInt8 → Int) (first second instanceId : List UInt8) :
    Prop where
  first_within : CopiesWithin first instanceId
  second_within : ∀ memory : Memory,
    parseDeviceId instanceId first 4 memory.beyond memory.first = 0 →
      CopiesWithin second instanceId
  number : ∀ memory, device memory instanceId = idNumber first second instanceId

/-- If the prefix occurs, exactly three characters follow, or at least four, one of which ends the
number. -/
def Definite (identifierPrefix instanceId : List UInt8) : Prop :=
  ∀ post, behind identifierPrefix instanceId = some post →
    post.length = 3 ∨ 4 ≤ post.length ∧ Stops (post.take 4)

/-! ## One prefix -/

variable {identifierPrefix instanceId : List UInt8}

theorem copiesWithin_iff : CopiesWithin identifierPrefix instanceId ↔
    ∀ post, behind identifierPrefix instanceId = some post → 3 ≤ post.length := by
  unfold CopiesWithin
  rw [strstr_eq]
  cases behind identifierPrefix instanceId with
  | none => simp
  | some post => simp

theorem parseDeviceId_eq (beyond leftover : List UInt8) :
    parseDeviceId instanceId identifierPrefix 4 beyond leftover =
      match behind identifierPrefix instanceId with
      | none => 0
      | some post => strtolLong ((post ++ 0 :: beyond).take 4 ++ leftover) := by
  unfold parseDeviceId
  rw [strstr_eq]
  cases behind identifierPrefix instanceId with
  | none => rfl
  | some post => simp

theorem Definite.copiesWithin (definite : Definite identifierPrefix instanceId) :
    CopiesWithin identifierPrefix instanceId := by
  rw [copiesWithin_iff]
  intro post found
  rcases definite post found with three | ⟨four, -⟩
  · exact three.ge
  · omega

/-- What is in memory does not matter. -/
theorem Definite.parsed (definite : Definite identifierPrefix instanceId)
    (beyond leftover : List UInt8) :
    parseDeviceId instanceId identifierPrefix 4 beyond leftover =
      numberBehind identifierPrefix instanceId := by
  rw [parseDeviceId_eq, numberBehind]
  cases found : behind identifierPrefix instanceId with
  | none => rfl
  | some post =>
    show strtolLong _ = strtolLong _
    unfold strtolLong
    rcases definite post found with three | ⟨four, stops⟩
    · -- the terminating zero is copied
      have copied : (post ++ 0 :: beyond).take 4 ++ leftover = post ++ 0 :: leftover := by
        rw [List.take_append, three, List.take_of_length_le (by omega)]
        simp
      rw [copied, strtol16_zero, List.take_of_length_le (by omega)]
    · rw [List.take_append_of_le_length four, stops.strtol16_append]

/-- The fifth byte of the buffer matters, and can be one that makes the number another, not 0. -/
theorem parseDeviceId_leftover {post : List UInt8}
    (found : behind identifierPrefix instanceId = some post) (four : 4 ≤ post.length)
    (runs : ¬ Stops (post.take 4)) (beyond : List UInt8) :
    parseDeviceId instanceId identifierPrefix 4 beyond [49] ≠
      parseDeviceId instanceId identifierPrefix 4 beyond [50] ∧
      parseDeviceId instanceId identifierPrefix 4 beyond [49] ≠ 0 ∧
      parseDeviceId instanceId identifierPrefix 4 beyond [50] ≠ 0 := by
  have short : (post.take 4).length ≤ 4 := by simp
  have nonneg := (hexValue_bounds (numeral (post.take 4))).1
  rw [parseDeviceId_eq, parseDeviceId_eq, found]
  dsimp only
  rw [List.take_append_of_le_length four,
    strtolLong_concat short runs (by decide) (show strtol16.hexDigit 49 = some 1 by decide),
    strtolLong_concat short runs (by decide) (show strtol16.hexDigit 50 = some 2 by decide)]
  split <;> omega

/-- What every memory gives one number for, is definite. -/
theorem definite_of_same (within : CopiesWithin identifierPrefix instanceId)
    (same : parseDeviceId instanceId identifierPrefix 4 [] [49] ≠ 0 →
      parseDeviceId instanceId identifierPrefix 4 [] [50] ≠ 0 →
      parseDeviceId instanceId identifierPrefix 4 [] [49] =
        parseDeviceId instanceId identifierPrefix 4 [] [50]) :
    Definite identifierPrefix instanceId := by
  intro post found
  have three := copiesWithin_iff.mp within post found
  by_contra indefinite
  obtain ⟨more, runs⟩ := not_or.mp indefinite
  have four : 4 ≤ post.length := by omega
  obtain ⟨differ, one, two⟩ := parseDeviceId_leftover found four (fun h => runs ⟨four, h⟩) []
  exact differ (same one two)

/-! ## Both ids -/

/-- **When a number is read exactly**, for any two prefixes. -/
theorem deviceNumber_exact_iff (first second instanceId : List UInt8) :
    ReadsId (deviceNumber first second) first second instanceId ↔
      Definite first instanceId ∧
        (numberBehind first instanceId = 0 → Definite second instanceId) := by
  constructor
  · rintro ⟨first_within, second_within, number⟩
    have definite : Definite first instanceId := by
      refine definite_of_same first_within fun one two => ?_
      have same := (number { first := [49] }).trans (number { first := [50] }).symm
      simpa only [deviceNumber, if_neg one, if_neg two] using same
    refine ⟨definite, fun zero => ?_⟩
    have none_first : ∀ beyond leftover, parseDeviceId instanceId first 4 beyond leftover = 0 :=
      fun beyond leftover => (definite.parsed beyond leftover).trans zero
    refine definite_of_same (second_within {} (none_first _ _)) fun _ _ => ?_
    have same := (number { second := [49] }).trans (number { second := [50] }).symm
    simpa only [deviceNumber, if_pos (none_first _ _)] using same
  · rintro ⟨definite, definite'⟩
    refine ⟨definite.copiesWithin, fun memory zero => ?_, fun memory => ?_⟩
    · rw [definite.parsed] at zero
      exact (definite' zero).copiesWithin
    · unfold deviceNumber idNumber
      rw [definite.parsed]
      dsimp only
      split
      · next zero => exact (definite' zero).parsed _ _
      · rfl

end Enum

end CircuitsUart
