import CircuitsUart.Lib.Etf
import CircuitsUart.Port.AtomBuffers

/-!
# Requests in memory

`ei_decode_*` and `ei_skip_term` on the bytes at the cursor, as `ei_copy` has them. A decoder
leaves the cursor behind what it has read, or where it was if it returns -1. What is behind the
end of the memory is not to be read, and nothing is said of a run that does.

Whatever form a tag is written in, a decoder makes of its bytes what `Port` says it makes of the
tag; and a term is skipped whole.

The decoders here take all that theirs do, pids, ports, references and functions among it, because
`ei_skip_term` goes by the type of what it finds and some of its branches leave the cursor where it
was. What is proved of them is about the tags that `Etf.Tag.Writes` has forms for. The version of
`ei` is the one that `src/ei_copy` holds, and it is older than some of the forms a VM may choose.
-/

set_option autoImplicit false

namespace CircuitsUart

open Lib Port

namespace Ei

variable {α γ : Type}

/-! ## The code -/

/-- `get8`, `get16be` and `get32be`. -/
def get (k : Nat) (s : List UInt8) : Verdict (Nat × List UInt8) :=
  match Etf.word k s with
  | some r => .ok r
  | none => .overrun

/-- So many bytes, copied or passed. -/
def take (n : Nat) (s : List UInt8) : Verdict (List UInt8 × List UInt8) :=
  match Etf.cut n s with
  | some r => .ok r
  | none => .overrun

/-- The C string in an array of bytes. -/
def string (bytes : List UInt8) : String :=
  String.ofList ((Program.cString bytes).map fun b => Char.ofNat b.toNat)

/-- Of an atom: whether it is in UTF-8, its length in bytes, and what follows. -/
def atomHeader : List UInt8 → Verdict (Bool × Nat × List UInt8)
  | 100 :: s => (get 2 s).map fun len => (false, len)
  | 115 :: s => (get 1 s).map fun len => (false, len)
  | 118 :: s => (get 2 s).map fun len => (true, len)
  | 119 :: s => (get 1 s).map fun len => (true, len)
  | [] => .overrun
  | _ => .failed

/-- `utf8_to_latin1`, to so many bytes at most: those it stores, and whether it gets to the end. -/
def utf8ToLatin1 : Nat → List UInt8 → List UInt8 × Bool
  | _, [] => ([], true)
  | 0, _ :: _ => ([], false)
  | destlen + 1, src₀ :: src =>
    if src₀ &&& 0x80 = 0 then
      let r := utf8ToLatin1 destlen src
      (src₀ :: r.1, r.2)
    else
      match src with
      | [] => ([], false)
      | src₁ :: src =>
        if src₀ &&& 0xFE = 0xC2 ∧ src₁ &&& 0xC0 = 0x80 then
          let r := utf8ToLatin1 destlen src
          ((src₀ <<< 6 ||| src₁ &&& 0x3F) :: r.1, r.2)
        else ([], false)

/-- `ei_decode_atom`, with the size of the buffer it does not know. -/
def decodeAtom (size : Nat) (s : List UInt8) : Verdict (String × List UInt8) :=
  (atomHeader s).bind fun header =>
    if header.1 then
      (take header.2.1 header.2.2).bind fun text =>
        let latin1 := utf8ToLatin1 (MAXATOMLEN - 1) text.1
        if size < latin1.1.length + latin1.2.toNat then .overrun
        else if latin1.2 then .ok (string latin1.1, text.2)
        else .failed
    else if MAXATOMLEN ≤ header.2.1 then .failed
    else
      (take header.2.1 header.2.2).bind fun text =>
        if size < header.2.1 + 1 then .overrun else .ok (string text.1, text.2)

/-- `ei_decode_boolean`. -/
def decodeBoolean (s : List UInt8) : Verdict (Bool × List UInt8) :=
  (atomHeader s).bind fun header =>
    if 6 ≤ header.2.1 then .failed
    else
      (take header.2.1 header.2.2).bind fun text =>
        let tbuf := text.1 ++ [0]
        if text.1.any fun b => b &&& 0x80 ≠ 0 then .failed
        else if tbuf.take 5 = ascii "true" ++ [0] then .ok (true, text.2)
        else if tbuf.take 6 = ascii "false" ++ [0] then .ok (false, text.2)
        else .failed

/-- The digits of a bignum, in `ei_decode_longlong`. -/
def decodeDigits (arity : Nat) (s : List UInt8) : Verdict (Int × List UInt8) :=
  (get 1 s).bind fun sign =>
    (take arity sign.2).bind fun digits =>
      let u := Etf.magnitude (digits.1.take 8)
      if (digits.1.drop 8).any fun digit => digit ≠ 0 then .failed
      else if sign.1 ≠ 0 then
        if u > 0x8000000000000000 then .failed else .ok (-(u : Int), digits.2)
      else if u > 0x7FFFFFFFFFFFFFFF then .failed
      else .ok (u, digits.2)

/-- `ei_decode_long`, where a `long` has 64 bits. -/
def decodeLong : List UInt8 → Verdict (Int × List UInt8)
  | 97 :: s => (get 1 s).map fun n => (n.1, n.2)
  | 98 :: s => (get 4 s).map fun n => (Etf.signed n.1, n.2)
  | 110 :: s => (get 1 s).bind fun arity => decodeDigits arity.1 arity.2
  | 111 :: s => (get 4 s).bind fun arity => decodeDigits (Etf.signed arity.1).toNat arity.2
  | [] => .overrun
  | _ => .failed

/-- `ei_decode_version`. -/
def decodeVersion : List UInt8 → Verdict (List UInt8)
  | 131 :: s => .ok s
  | [] => .overrun
  | _ => .failed

/-- `ei_decode_tuple_header`. -/
def decodeTupleHeader : List UInt8 → Verdict (Int × List UInt8)
  | 104 :: s => (get 1 s).map fun arity => (arity.1, arity.2)
  | 105 :: s => (get 4 s).map fun arity => (Etf.signed arity.1, arity.2)
  | [] => .overrun
  | _ => .failed

/-- `ei_decode_map_header`. -/
def decodeMapHeader : List UInt8 → Verdict (Int × List UInt8)
  | 116 :: s => (get 4 s).map fun arity => (Etf.signed arity.1, arity.2)
  | [] => .overrun
  | _ => .failed

/-- `ei_decode_list_header`. -/
def decodeListHeader : List UInt8 → Verdict (Int × List UInt8)
  | 106 :: s => .ok (0, s)
  | 108 :: s => (get 4 s).map fun arity => (Etf.signed arity.1, arity.2)
  | [] => .overrun
  | _ => .failed

/-- `ei_decode_binary`. -/
def decodeBinary : List UInt8 → Verdict (List UInt8 × List UInt8)
  | 109 :: s => (get 4 s).bind fun len =>
    if Etf.signed len.1 < 0 then .overrun else take (Etf.signed len.1).toNat len.2
  | [] => .overrun
  | _ => .failed

/-- `ei_get_type`: small and large are one type for atoms and for floats. -/
def getType : List UInt8 → Verdict (UInt8 × Int)
  | 115 :: s | 119 :: s => (get 1 s).map fun len => (100, len.1)
  | 104 :: s => (get 1 s).map fun len => (104, len.1)
  | 118 :: s | 100 :: s => (get 2 s).map fun len => (100, len.1)
  | 107 :: s => (get 2 s).map fun len => (107, len.1)
  | 70 :: _ | 99 :: _ => .ok (99, 0)
  | 105 :: s => (get 4 s).map fun len => (105, Etf.signed len.1)
  | 108 :: s => (get 4 s).map fun len => (108, Etf.signed len.1)
  | 109 :: s => (get 4 s).map fun len => (109, Etf.signed len.1)
  | 110 :: s => (get 1 s).map fun len => (110, len.1)
  | 111 :: s => (get 4 s).map fun len => (111, Etf.signed len.1)
  | ty :: _ => .ok (ty, 0)
  | [] => .overrun

/-! ### `ei_skip_term` -/

/-- The memory behind a number of bytes. -/
def pass (n : Nat) (s : List UInt8) : Verdict (List UInt8) := (take n s).map fun bytes => bytes.2

def MAXATOMLEN_UTF8 : Nat := 255 * 4 + 1

/-- `ei_decode_atom_as` with no buffer, for either encoding. -/
def passAtom (s : List UInt8) : Verdict (List UInt8) :=
  (atomHeader s).bind fun header =>
    if MAXATOMLEN_UTF8 ≤ header.2.1 then .failed else pass header.2.1 header.2.2

/-- `latin1_to_utf8` gets to the end, in so many bytes. -/
def latin1ToUtf8 : Nat → List UInt8 → Bool
  | _, [] => true
  | 0, _ :: _ => false
  | destlen + 1, src₀ :: src =>
    if src₀ &&& 0x80 = 0 then latin1ToUtf8 destlen src else latin1ToUtf8 (destlen - 1) src

/-- `ei_internal_get_atom` with no buffer: the name of a node or a module, in UTF-8. -/
def getAtom (s : List UInt8) : Verdict (List UInt8) :=
  (atomHeader s).bind fun header =>
    if header.1 then if MAXATOMLEN_UTF8 ≤ header.2.1 then .failed else pass header.2.1 header.2.2
    else
      (take header.2.1 header.2.2).bind fun text =>
        if latin1ToUtf8 (MAXATOMLEN_UTF8 - 1) text.1 then .ok text.2 else .failed

/-- `ei_decode_pid`. -/
def passPid : List UInt8 → Verdict (List UInt8)
  | 103 :: s => (getAtom s).bind (pass 9)
  | [] => .overrun
  | _ => .failed

/-- `ei_decode_port`. -/
def passPort : List UInt8 → Verdict (List UInt8)
  | 102 :: s => (getAtom s).bind (pass 5)
  | [] => .overrun
  | _ => .failed

/-- `ei_decode_ref`. -/
def passRef : List UInt8 → Verdict (List UInt8)
  | 101 :: s => (getAtom s).bind (pass 5)
  | 114 :: s => (get 2 s).bind fun count => (getAtom count.2).bind (pass (1 + 4 * count.1))
  | [] => .overrun
  | _ => .failed

/-- `ei_decode_string`, of a string. -/
def passString : List UInt8 → Verdict (List UInt8)
  | 107 :: s => (get 2 s).bind fun len => pass len.1 len.2
  | [] => .overrun
  | _ => .failed

/-- `ei_decode_big`. -/
def passBig : List UInt8 → Verdict (List UInt8)
  | 110 :: s => (get 1 s).bind fun digitBytes => pass (1 + digitBytes.1) digitBytes.2
  | 111 :: s => (get 4 s).bind fun digitBytes => pass (1 + digitBytes.1) digitBytes.2
  | [] => .overrun
  | _ => .failed

/-- `ei_decode_double`. The text of the old format is taken to be a number. -/
def passDouble : List UInt8 → Verdict (List UInt8)
  | 99 :: s => pass 31 s
  | 70 :: s => pass 8 s
  | [] => .overrun
  | _ => .failed

/-- The same for so many terms, until one fails. -/
def passEach (skip : List UInt8 → Verdict (Bool × List UInt8)) :
    Nat → List UInt8 → Verdict (List UInt8)
  | 0, s => .ok s
  | n + 1, s => (skip s).bind fun r => if r.1 then passEach skip n r.2 else .failed

/-- `ei_decode_fun`, given `ei_skip_term` for what it is closed over. -/
def passFun (skip : List UInt8 → Verdict (Bool × List UInt8)) :
    List UInt8 → Verdict (List UInt8)
  | 117 :: s => (get 4 s).bind fun n =>
    (passPid n.2).bind fun s => (getAtom s).bind fun s => (decodeLong s).bind fun index =>
      (decodeLong index.2).bind fun uniq => passEach skip (Etf.signed n.1).toNat uniq.2
  | 112 :: s => (get 4 s).bind fun n =>
    (pass 25 n.2).bind fun s => (getAtom s).bind fun s => (decodeLong s).bind fun index =>
      (decodeLong index.2).bind fun uniq => (passPid uniq.2).bind fun s' =>
        -- the size counts its own four bytes
        let read : Int := (n.2.length - s'.length : Nat) + 4
        if Etf.signed n.1 < read then .failed else pass (Etf.signed n.1 - read).toNat s'
  | [] => .overrun
  | _ => .failed

/-- A decoder's -1 is returned with the cursor where it was. -/
def returning (s : List UInt8) : Verdict (List UInt8) → Verdict (Bool × List UInt8)
  | .ok s' => .ok (true, s')
  | .failed => .ok (false, s)
  | .overrun => .overrun

/-- A loop over so many terms, which looks at no result. -/
def skipEach (skip : List UInt8 → Verdict (Bool × List UInt8)) :
    Nat → List UInt8 → Verdict (List UInt8)
  | 0, s => .ok s
  | n + 1, s => (skip s).bind fun r => skipEach skip n r.2

/-- The end of a list. -/
def skipTail (skip : List UInt8 → Verdict (Bool × List UInt8)) (s : List UInt8) :
    Verdict (Bool × List UInt8) :=
  (getType s).bind fun type =>
    if type.1 ≠ 106 then (skip s).map fun r => (true, r.2)
    else returning s ((decodeListHeader s).map fun n => n.2)

/-- `ei_skip_term`: whether it returns 0, and the cursor. Terms are inside one another so many
times at most. -/
def skipTermIn : Nat → List UInt8 → Verdict (Bool × List UInt8)
  | 0, _ => .overrun
  | depth + 1, s =>
    (getType s).bind fun type =>
      match type.1 with
      | 100 => returning s (passAtom s)
      | 103 => returning s (passPid s)
      | 102 => returning s (passPort s)
      | 114 | 101 => returning s (passRef s)
      | 106 => returning s ((decodeListHeader s).map fun n => n.2)
      | 108 => (decodeListHeader s).bind fun n =>
        (skipEach (skipTermIn depth) n.1.toNat n.2).bind (skipTail (skipTermIn depth))
      | 107 => returning s (passString s)
      | 104 | 105 => (decodeTupleHeader s).bind fun n =>
        (skipEach (skipTermIn depth) n.1.toNat n.2).map fun s => (true, s)
      | 116 => (decodeMapHeader s).bind fun n =>
        (skipEach (skipTermIn depth) (2 * n.1).toNat n.2).map fun s => (true, s)
      | 109 => returning s ((decodeBinary s).map fun bytes => bytes.2)
      | 97 | 98 => returning s ((decodeLong s).map fun n => n.2)
      | 110 | 111 => returning s (passBig s)
      | 99 => returning s (passDouble s)
      | 117 | 112 => returning s (passFun (skipTermIn depth) s)
      | _ => .ok (false, s)

/-- A term inside another begins at least one byte behind it. -/
def skipTerm (s : List UInt8) : Verdict (Bool × List UInt8) := skipTermIn (s.length + 1) s

end Ei

end CircuitsUart
