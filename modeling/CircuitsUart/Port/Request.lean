import CircuitsUart.Port.Encoded

/-!
# A write request, byte by byte

What `:erlang.term_to_binary/1` makes of `{:write, {data, timeout}}`.

The C program reads a request in any form that its tags may have (`Port.Encoded`), but whether a
request has room in its buffer depends on the form that is chosen. The VM chooses by size alone, but
for the name of the command: since OTP 26 an atom is written in UTF-8, with one byte for its length
instead of two. So there is one parameter, `AtomTag`, and everything else is computed.

`encodeWrite_writes` ties the bytes to the rest: they are the version and, in some form, the tags of
the command. So nothing has to be said here about how they are read.
-/

set_option autoImplicit false

namespace CircuitsUart

open Lib Port

namespace Request

/-! ## The bytes -/

/-- How atoms are written: `SMALL_ATOM_UTF8_EXT`, or `ATOM_EXT` before OTP 26. -/
inductive AtomTag
  | smallUtf8
  | latin1
  deriving DecidableEq, Repr

def AtomTag.form : AtomTag → Etf.AtomForm
  | .smallUtf8 => .smallUtf8
  | .latin1 => .latin1

/-- The bytes before an atom's name. -/
def AtomTag.headerSize : AtomTag → Nat
  | .smallUtf8 => 2
  | .latin1 => 3

def AtomTag.encode (tag : AtomTag) (name : String) : List UInt8 :=
  tag.form.code ::
    (Etf.bigEndian tag.form.width (tag.form.text name).length ++ tag.form.text name)

/-- `BINARY_EXT`. -/
def encodeBinary (data : List UInt8) : List UInt8 :=
  109 :: (Etf.bigEndian 4 data.length ++ data)

/-- `SMALL_INTEGER_EXT`, `INTEGER_EXT`, and `SMALL_BIG_EXT` for what is left below `2 ^ 32`. -/
def encodeNat (n : Nat) : List UInt8 :=
  if n < 256 then [97, UInt8.ofNat n]
  else if n < 2 ^ 31 then 98 :: Etf.bigEndian 4 n
  else 110 :: 4 :: 0 :: (Etf.bigEndian 4 n).reverse

/-- How many bytes the timeout takes. -/
def natSize (n : Nat) : Nat := if n < 256 then 2 else if n < 2 ^ 31 then 5 else 7

/-- `:erlang.term_to_binary({:write, {data, timeout}})`. -/
def encodeWrite (tag : AtomTag) (data : List UInt8) (timeout : Nat) : List UInt8 :=
  131 :: 104 :: 2 ::
    (tag.encode "write" ++ 104 :: 2 :: (encodeBinary data ++ encodeNat timeout))

/-! ## How many there are -/

theorem length_encodeNat (n : Nat) : (encodeNat n).length = natSize n := by
  unfold encodeNat natSize
  split
  · rfl
  · split <;> rfl

theorem length_atom (tag : AtomTag) : (tag.encode "write").length = tag.headerSize + 5 := by
  cases tag <;> decide

theorem length_encodeWrite (tag : AtomTag) (data : List UInt8) (timeout : Nat) :
    (encodeWrite tag data timeout).length =
      data.length + tag.headerSize + natSize timeout + 15 := by
  unfold encodeWrite encodeBinary
  simp only [List.length_cons, List.length_append, length_atom, length_encodeNat,
    Etf.length_bigEndian]
  omega

/-! ## What they say -/

theorem atom_writes (tag : AtomTag) : (Etf.Tag.atom "write").Writes (tag.encode "write") :=
  .atom ⟨by decide, fun _ => by simp, by cases tag <;> decide⟩

theorem encodeNat_writes {n : Nat} (fits : n < 2 ^ 32) :
    (Etf.Tag.int n).Writes (encodeNat n) := by
  unfold encodeNat
  split
  · next small =>
    have writes := Etf.Tag.Writes.smallInteger (UInt8.ofNat n)
    rwa [UInt8.toNat_ofNat', Nat.mod_eq_of_lt small] at writes
  · split
    · next positive =>
      have writes := Etf.Tag.Writes.integer fits
      rwa [show Etf.signed n = n from if_pos positive] at writes
    · have small : (Etf.bigEndian 4 n).reverse.length < 256 := by
        rw [List.length_reverse, Etf.length_bigEndian]
        decide
      have writes := Etf.Tag.Writes.smallBig false small
      have value : Etf.bigInt false (Etf.bigEndian 4 n).reverse = n := by
        rw [Etf.bigInt, if_neg Bool.false_ne_true, Etf.magnitude_reverse, Etf.number_bigEndian fits]
      rw [value, List.length_reverse, Etf.length_bigEndian] at writes
      exact writes

/-- **A write request is the version and the command.** -/
theorem encodeWrite_writes (tag : AtomTag) {data : List UInt8} {timeout : Nat}
    (data_fits : data.length < 2 ^ 32) (timeout_fits : timeout < 2 ^ 32) :
    ∃ b, encodeWrite tag data timeout = 131 :: b ∧
      Etf.WritesAll (Command.write data timeout).tags b := by
  have pair : (Etf.Tag.tuple 2).Writes [104, 2] := .smallTuple (by decide)
  have timeout := Etf.WritesAll.cons (encodeNat_writes timeout_fits) .nil
  rw [List.append_nil] at timeout
  exact ⟨_, rfl, .cons pair (.cons (atom_writes tag) (.cons pair (.cons (.binary data_fits)
    timeout)))⟩

end Request

end CircuitsUart
