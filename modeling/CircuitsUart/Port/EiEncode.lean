import CircuitsUart.Port.Config
import CircuitsUart.Lib.Etf

/-!
# Responses in memory

`ei_encode_*`, as `ei_copy` has them: the bytes that each puts at the cursor. They are tags of the
external term format, and there is a bound on how many bytes they take.

The encoders write as they are told. They cut a name at 255 bytes, write the elements of a list
wherever the caller puts them, and know nothing of the size of the buffer. So what they have
written is a tag only under a condition (`Encodable`), and a term only if the caller counts right;
both are for `Port.Sent` to show of the messages that the program puts together.

Which form an encoder chooses does not matter to the reader. `encodeTag_writes` says that it is
one of the forms of its tag, and everything else goes through `Lib.Etf`.
-/

set_option autoImplicit false

namespace CircuitsUart

open Lib Port

namespace Ei

/-! ## The code -/

/-- `ei_encode_version`. -/
def encodeVersion : List UInt8 := [131]

/-- `ei_encode_tuple_header`, of an arity that is not negative. -/
def encodeTupleHeader (arity : Nat) : List UInt8 :=
  if arity ≤ 0xff then 104 :: Etf.bigEndian 1 arity else 105 :: Etf.bigEndian 4 arity

/-- `ei_encode_list_header`, of an arity that is not negative. -/
def encodeListHeader (arity : Nat) : List UInt8 :=
  if 0 < arity then 108 :: Etf.bigEndian 4 arity else [106]

/-- `ei_encode_empty_list`. -/
def encodeEmptyList : List UInt8 := encodeListHeader 0

/-- `ei_encode_map_header`, of an arity that is not negative. -/
def encodeMapHeader (arity : Nat) : List UInt8 := 116 :: Etf.bigEndian 4 arity

/-- `ei_encode_atom`, of a string up to its zero: 255 bytes at most. -/
def encodeAtom (p : List UInt8) : List UInt8 :=
  let len := min p.length 255
  100 :: (Etf.bigEndian 2 len ++ p.take len)

/-- `ei_encode_boolean`. -/
def encodeBoolean (p : Int) : List UInt8 :=
  let val := ascii (if p ≠ 0 then "true" else "false")
  100 :: (Etf.bigEndian 2 val.length ++ val)

/-- `while (up)`, the lowest byte first. The eight bytes of `up` are enough turns. -/
def encodeDigits : Nat → Nat → List UInt8
  | 0, _ => []
  | turns + 1, up => if up ≠ 0 then UInt8.ofNat up :: encodeDigits turns (up >>> 8) else []

def ERL_MAX : Int := 2 ^ 27 - 1
def ERL_MIN : Int := -2 ^ 27

/-- `ei_encode_long`, where a `long` has 64 bits. -/
def encodeLong (p : Int) : List UInt8 :=
  if p < 256 ∧ 0 ≤ p then [97, UInt8.ofNat p.toNat]
  else if p ≤ ERL_MAX ∧ ERL_MIN ≤ p then 98 :: Etf.bigEndian 4 (p % 2 ^ 32).toNat
  else
    -- the absolute value as an unsigned number, of `LONG_MIN` too
    let digits := encodeDigits 8 p.natAbs
    110 :: UInt8.ofNat digits.length :: (if p < 0 then 1 else 0) :: digits

/-- `ei_encode_binary`. -/
def encodeBinary (p : List UInt8) : List UInt8 := 109 :: (Etf.bigEndian 4 p.length ++ p)

/-- The bytes of the call for a tag. Nothing is written with a call for the others. -/
def encodeTag : Etf.Tag → List UInt8
  | .int value => encodeLong value
  | .atom name => encodeAtom (ascii name)
  | .binary bytes => encodeBinary bytes
  | .tuple arity => encodeTupleHeader arity
  | .list length => encodeListHeader length
  | .nil => encodeEmptyList
  | .float _ | .string _ | .map _ | .other => []

/-! ## What is written -/

theorem encodeTupleHeader_writes {arity : Nat} (fits : arity < 2 ^ 32) :
    (Etf.Tag.tuple arity).Writes (encodeTupleHeader arity) := by
  unfold encodeTupleHeader
  split
  · next small => exact .smallTuple (Nat.lt_succ_of_le small)
  · exact .largeTuple fits

theorem encodeListHeader_writes {arity : Nat} (some_elements : 0 < arity) (fits : arity < 2 ^ 32) :
    (Etf.Tag.list arity).Writes (encodeListHeader arity) := by
  rw [encodeListHeader, if_pos some_elements]
  exact .list fits

theorem encodeEmptyList_writes : Etf.Tag.nil.Writes encodeEmptyList := .nil

theorem encodeMapHeader_writes {arity : Nat} (fits : arity < 2 ^ 32) :
    (Etf.Tag.map (2 * arity)).Writes (encodeMapHeader arity) := .map fits

/-- The name of an atom that is written as it is. -/
structure Nameable (name : String) : Prop where
  short : name.length ≤ 255
  latin1 : ∀ c ∈ name.toList, c.toNat < 256

instance (name : String) : Decidable (Nameable name) :=
  decidable_of_iff (name.length ≤ 255 ∧ (name.toList.all fun c => c.toNat < 256) = true)
    ⟨fun h => ⟨h.1, by simpa using h.2⟩, fun h => ⟨h.short, by simpa using h.latin1⟩⟩

theorem length_ascii (s : String) : (ascii s).length = s.length := by
  rw [ascii, List.length_map, String.length_toList]

theorem encodeAtom_writes {name : String} (nameable : Nameable name) :
    (Etf.Tag.atom name).Writes (encodeAtom (ascii name)) := by
  have length : (ascii name).length ≤ 255 := (length_ascii name).trans_le nameable.short
  have allows : Etf.AtomForm.latin1.Allows name :=
    ⟨(String.length_toList ▸ nameable.short), fun _ => nameable.latin1,
      (show (ascii name).length < 256 ^ 2 by omega)⟩
  rw [encodeAtom, Nat.min_eq_left length, List.take_length]
  exact .atom allows

theorem encodeBoolean_eq (p : Int) :
    encodeBoolean p = encodeAtom (ascii (if p ≠ 0 then "true" else "false")) := by
  unfold encodeBoolean
  split <;> rfl

theorem nameable_boolean (v : Prop) [Decidable v] : Nameable (if v then "true" else "false") := by
  split <;> decide

theorem encodeBoolean_writes (p : Int) :
    (Etf.Tag.atom (if p ≠ 0 then "true" else "false")).Writes (encodeBoolean p) := by
  rw [encodeBoolean_eq]
  exact encodeAtom_writes (nameable_boolean _)

/-- The digits make the number again. -/
theorem magnitude_encodeDigits {turns up : Nat} (enough : up < 256 ^ turns) :
    Etf.magnitude (encodeDigits turns up) = up := by
  induction turns generalizing up with
  | zero =>
    rw [Nat.lt_one_iff.mp enough]
    rfl
  | succ turns ih =>
    rw [encodeDigits]
    split
    · have smaller : up >>> 8 < 256 ^ turns := by
        rw [Nat.shiftRight_eq_div_pow]
        exact Nat.div_lt_of_lt_mul (by rwa [Nat.pow_succ, Nat.mul_comm] at enough)
      have rest := ih smaller
      show (UInt8.ofNat up).toNat + 256 * Etf.magnitude (encodeDigits turns (up >>> 8)) = up
      rw [rest, UInt8.toNat_ofNat', Nat.shiftRight_eq_div_pow]
      exact Nat.mod_add_div up 256
    · next zero => exact (not_not.mp zero).symm

theorem length_encodeDigits_le (turns up : Nat) : (encodeDigits turns up).length ≤ turns := by
  induction turns generalizing up with
  | zero => exact Nat.le_refl _
  | succ turns ih =>
    rw [encodeDigits]
    split
    · exact Nat.succ_le_succ (ih _)
    · exact Nat.zero_le _

/-- **`ei_encode_long`** writes its number, in each of its forms. -/
theorem encodeLong_writes {p : Int} (long : LONG_MIN ≤ p ∧ p ≤ LONG_MAX) :
    (Etf.Tag.int p).Writes (encodeLong p) := by
  unfold encodeLong
  split
  · next small =>
    have byte : ((UInt8.ofNat p.toNat).toNat : Int) = p := by
      rw [UInt8.toNat_ofNat', Nat.mod_eq_of_lt (by omega)]
      omega
    have writes := Etf.Tag.Writes.smallInteger (UInt8.ofNat p.toNat)
    rwa [byte] at writes
  · split
    · next middle =>
      unfold ERL_MAX ERL_MIN at middle
      have word : Etf.signed (p % 2 ^ 32).toNat = p := by
        unfold Etf.signed
        split <;> omega
      have writes := Etf.Tag.Writes.integer (n := (p % 2 ^ 32).toNat) (by omega)
      rwa [word] at writes
    · unfold LONG_MIN LONG_MAX at long
      have digits : Etf.magnitude (encodeDigits 8 p.natAbs) = p.natAbs :=
        magnitude_encodeDigits (show p.natAbs < 256 ^ 8 by omega)
      have value : Etf.bigInt (p < 0) (encodeDigits 8 p.natAbs) = p := by
        rw [Etf.bigInt, digits]
        split
        · next negative =>
          have := of_decide_eq_true negative
          omega
        · next positive =>
          have := of_decide_eq_false (Bool.eq_false_iff.mpr positive)
          omega
      have few := length_encodeDigits_le 8 p.natAbs
      have fits : (encodeDigits 8 p.natAbs).length < 2 ^ 8 := by omega
      have writes := Etf.Tag.Writes.smallBig (p < 0) fits
      rw [value] at writes
      have sign : Etf.signByte (p < 0) = if p < 0 then 1 else 0 := by
        unfold Etf.signByte
        split <;> simp_all
      rw [sign] at writes
      have one : Etf.bigEndian 1 (encodeDigits 8 p.natAbs).length =
          [UInt8.ofNat (encodeDigits 8 p.natAbs).length] := by
        simp [Etf.bigEndian]
      rwa [one] at writes

theorem encodeBinary_writes {p : List UInt8} (fits : p.length < 2 ^ 32) :
    (Etf.Tag.binary p).Writes (encodeBinary p) := .binary fits

/-- The tags that the calls write as they are. -/
def Encodable : Etf.Tag → Prop
  | .int value => LONG_MIN ≤ value ∧ value ≤ LONG_MAX
  | .atom name => Nameable name
  | .binary bytes => bytes.length < 2 ^ 32
  | .tuple arity => arity < 2 ^ 32
  | .list length => 0 < length ∧ length < 2 ^ 32
  | .nil => True
  | .float _ | .string _ | .map _ | .other => False

instance : DecidablePred Encodable
  | .int value => inferInstanceAs (Decidable (LONG_MIN ≤ value ∧ value ≤ LONG_MAX))
  | .atom name => inferInstanceAs (Decidable (Nameable name))
  | .binary bytes => inferInstanceAs (Decidable (bytes.length < 2 ^ 32))
  | .tuple arity => inferInstanceAs (Decidable (arity < 2 ^ 32))
  | .list length => inferInstanceAs (Decidable (0 < length ∧ length < 2 ^ 32))
  | .nil => inferInstanceAs (Decidable True)
  | .float _ | .string _ | .map _ | .other => inferInstanceAs (Decidable False)

theorem encodeTag_writes {tag : Etf.Tag} (encodable : Encodable tag) :
    tag.Writes (encodeTag tag) := by
  cases tag with
  | int => exact encodeLong_writes encodable
  | atom => exact encodeAtom_writes encodable
  | binary => exact encodeBinary_writes encodable
  | tuple => exact encodeTupleHeader_writes encodable
  | list => exact encodeListHeader_writes encodable.1 encodable.2
  | nil => exact encodeEmptyList_writes
  | float | string | map | other => exact encodable.elim

theorem writesAll_encodeTag {tags : List Etf.Tag} (encodable : ∀ tag ∈ tags, Encodable tag) :
    Etf.WritesAll tags (tags.flatMap encodeTag) := by
  induction tags with
  | nil => exact .nil
  | cons tag tags ih =>
    exact .cons (encodeTag_writes (encodable tag List.mem_cons_self))
      (ih fun tag' inside => encodable tag' (List.mem_cons_of_mem _ inside))

/-! ## How much is written -/

theorem length_encodeAtom (name : String) : (encodeAtom (ascii name)).length ≤ 3 + name.length := by
  rw [encodeAtom, List.length_cons, List.length_append, Etf.length_bigEndian, List.length_take,
    length_ascii]
  omega

theorem length_encodeBoolean (p : Int) : (encodeBoolean p).length ≤ 8 := by
  unfold encodeBoolean
  split <;> decide

theorem length_encodeBinary (p : List UInt8) : (encodeBinary p).length = 5 + p.length := by
  rw [encodeBinary, List.length_cons, List.length_append, Etf.length_bigEndian]
  omega

/-- Three bytes and as many as it takes. -/
theorem length_encodeDigits {turns up bound : Nat} (small : up < 256 ^ bound) :
    (encodeDigits turns up).length ≤ bound := by
  induction turns generalizing up bound with
  | zero => exact Nat.zero_le _
  | succ turns ih =>
    rw [encodeDigits]
    split
    · next positive =>
      cases bound with
      | zero => exact absurd (Nat.lt_one_iff.mp small) positive
      | succ bound =>
        refine Nat.succ_le_succ (ih ?_)
        rw [Nat.shiftRight_eq_div_pow]
        exact Nat.div_lt_of_lt_mul (by rwa [Nat.pow_succ, Nat.mul_comm] at small)
    · exact Nat.zero_le _

theorem length_encodeLong {p : Int} {bound : Nat} (two : 2 ≤ bound)
    (small : p.natAbs < 256 ^ bound) : (encodeLong p).length ≤ 3 + bound := by
  unfold encodeLong
  split
  · show 2 ≤ 3 + bound
    omega
  · split
    · rw [List.length_cons, Etf.length_bigEndian]
      omega
    · have digits : (encodeDigits 8 p.natAbs).length ≤ bound := length_encodeDigits small
      simp only [List.length_cons]
      omega

end Ei

end CircuitsUart
