import CircuitsUart.Lib.Etf
import CircuitsUart.Port.Config

/-!
# Terms in the external format

An external term is a stream of tags, each followed by the terms inside it. `ei_decode_*` read
one tag, and the atom or number that goes with it, at a cursor; `ei_skip_term` moves the cursor
over a whole term.

This is the layer between commands and bytes. The cursor is a list of tags, `Etf.Tag`, so a
decoder that is given a tag of the wrong kind can be seen to fail, and a program that loses its
place can be seen to read the inside of a term as the next option. In which of its forms a tag was
written is forgotten; `Port.Ei` has the bytes, and shows that the decoders there make of them what
these make of the tag.

A verdict has three cases. Besides a value and -1 there is the write past the end of a buffer,
after which nothing is said: `ei_decode_atom` is not told how large its buffer is.
-/

set_option autoImplicit false

namespace CircuitsUart

open Lib

namespace Port

/-! ## Terms and tags -/

/-- A term, in the form it is written in. None of the decoders takes an `other` one, a pid or a
function say. -/
inductive ExtTerm
  | int (value : Int)
  | float (bits : List UInt8)
  | atom (name : String)
  | binary (bytes : List UInt8)
  | string (bytes : List UInt8)
  | nil
  | tuple (elems : List ExtTerm)
  | list (elems : List ExtTerm) (tail : ExtTerm)
  | map (keysAndValues : List ExtTerm)
  | other

/-- The tag in front of a term, with the number of terms inside it. -/
def ExtTerm.head : ExtTerm → Etf.Tag
  | .int value => .int value
  | .float bits => .float bits
  | .atom name => .atom name
  | .binary bytes => .binary bytes
  | .string bytes => .string bytes
  | .nil => .nil
  | .tuple elems => .tuple elems.length
  | .list elems _ => .list elems.length
  | .map keysAndValues => .map keysAndValues.length
  | .other => .other

mutual

/-- The stream of a term. -/
def ExtTerm.tags : ExtTerm → List Etf.Tag
  | .int value => [.int value]
  | .float bits => [.float bits]
  | .atom name => [.atom name]
  | .binary bytes => [.binary bytes]
  | .string bytes => [.string bytes]
  | .nil => [.nil]
  | .tuple elems => .tuple elems.length :: tagsAll elems
  | .list elems tail => .list elems.length :: (tagsAll elems ++ tail.tags)
  | .map keysAndValues => .map keysAndValues.length :: tagsAll keysAndValues
  | .other => [.other]

/-- The stream of terms one behind the other. -/
def tagsAll : List ExtTerm → List Etf.Tag
  | [] => []
  | t :: ts => t.tags ++ tagsAll ts

end

/-! ## `ei_decode_*` -/

/-- What a call leaves: a value, -1, or a write past the end of the memory it was given. -/
inductive Verdict (α : Type)
  | ok (value : α)
  | failed
  | overrun
  deriving DecidableEq, Repr

namespace Verdict

variable {α γ : Type}

def map (f : α → γ) : Verdict α → Verdict γ
  | .ok a => .ok (f a)
  | .failed => .failed
  | .overrun => .overrun

def bind : Verdict α → (α → Verdict γ) → Verdict γ
  | .ok a, f => f a
  | .failed, _ => .failed
  | .overrun, _ => .overrun

end Verdict

/-- `ei_decode_atom` into a buffer of so many bytes, as the C string it leaves there. The name is
converted to Latin-1 one character at a time; the buffer's size is not known to it. -/
def eiDecodeAtom (size : Nat) : Etf.Tag → Verdict String
  | .atom name =>
    let latin1 := name.toList.takeWhile fun c => c.toNat ≤ 255
    if latin1 = name.toList then
      if name.toList.length + 1 > size then .overrun
      else .ok (String.ofList (name.toList.takeWhile fun c => c.toNat ≠ 0))
    else if latin1.length > size then .overrun
    else .failed
  | _ => .failed

/-- `ei_decode_boolean`, which compares five bytes for `true` and six for `false`. -/
def eiDecodeBoolean : Etf.Tag → Verdict Bool
  | .atom "true" => .ok true
  | .atom "true\x00" => .ok true
  | .atom "false" => .ok false
  | _ => .failed

/-- `ei_decode_long`. -/
def eiDecodeLong : Etf.Tag → Verdict Int
  | .int v => if LONG_MIN ≤ v ∧ v ≤ LONG_MAX then .ok v else .failed
  | _ => .failed

/-! ## `ei_skip_term` -/

/-- Skip so many terms. -/
def skipTerms : Nat → List Etf.Tag → List Etf.Tag
  | 0, req => req
  | _ + 1, [] => []
  | n + 1, tag :: req => skipTerms (tag.inside + n) req

/-- `ei_skip_term`. -/
def skipTerm (req : List Etf.Tag) : List Etf.Tag := skipTerms 1 req

mutual

/-- A term is skipped whole, however deep. -/
theorem skipTerms_tags (n : Nat) (rest : List Etf.Tag) :
    (t : ExtTerm) → skipTerms (n + 1) (t.tags ++ rest) = skipTerms n rest
  | .int _ | .float _ | .atom _ | .binary _ | .string _ | .nil | .other => by
    simp [ExtTerm.tags, skipTerms, Etf.Tag.inside]
  | .tuple elems => by
    rw [ExtTerm.tags, List.cons_append, skipTerms]
    exact skipTerms_tagsAll n rest elems
  | .list elems tail => by
    rw [ExtTerm.tags, List.cons_append, skipTerms, List.append_assoc]
    show skipTerms (elems.length + 1 + n) _ = _
    rw [Nat.add_assoc, skipTerms_tagsAll (1 + n) (tail.tags ++ rest) elems, Nat.add_comm 1 n]
    exact skipTerms_tags n rest tail
  | .map keysAndValues => by
    rw [ExtTerm.tags, List.cons_append, skipTerms]
    exact skipTerms_tagsAll n rest keysAndValues

theorem skipTerms_tagsAll (n : Nat) (rest : List Etf.Tag) :
    (ts : List ExtTerm) → skipTerms (ts.length + n) (tagsAll ts ++ rest) = skipTerms n rest
  | [] => by simp [tagsAll]
  | t :: ts => by
    rw [tagsAll, List.append_assoc, List.length_cons,
      show ts.length + 1 + n = ts.length + n + 1 by omega, skipTerms_tags]
    exact skipTerms_tagsAll n rest ts

end

/-- **`ei_skip_term` advances over exactly one term.** -/
theorem skipTerm_tags (t : ExtTerm) (rest : List Etf.Tag) : skipTerm (t.tags ++ rest) = rest := by
  rw [skipTerm, skipTerms_tags 0 rest t, skipTerms]

end Port

end CircuitsUart
