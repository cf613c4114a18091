import CircuitsUart.Port.EiDecode

/-!
# A term is skipped whole

`ei_skip_term` goes into a term as deep as it is, and comes out behind it.

It is one function that calls itself inside lists, tuples and maps, without looking at what the
calls return; so that it comes out at the right place is an induction over the term, with the
statement for a term and the one for a number of terms proved together. Its model has a bound on
the depth, and `skipTerm_written` says that the number of bytes is bound enough: each level takes
one at least.

`Written` is what is assumed of the memory, here and for every request: the stream of tags is
there, in any of its forms, and is shorter than `2 ^ 31` bytes, so that no length in it is
negative when `ei` takes it for an `int`.
-/

set_option autoImplicit false

namespace CircuitsUart

open Lib Port

namespace Ei

/-! ## A tag with nothing inside -/

theorem pass_append (bytes rest : List UInt8) : pass bytes.length (bytes ++ rest) = .ok rest := by
  rw [pass, take_append]
  rfl

/-- An atom of 255 characters is less than this in either encoding. -/
theorem length_text {form : Etf.AtomForm} {name : String} (allows : form.Allows name) :
    (form.text name).length < MAXATOMLEN_UTF8 := by
  have utf8 (chars : List Char) : (Etf.utf8Text chars).length ≤ 4 * chars.length := by
    induction chars with
    | nil => exact Nat.le_refl _
    | cons c chars ih =>
      have char := c.utf8Size_le_four
      have text : Etf.utf8Text (c :: chars) = String.utf8EncodeChar c ++ Etf.utf8Text chars := rfl
      rw [text, List.length_append, String.length_utf8EncodeChar, List.length_cons]
      omega
  have short := allows.short
  unfold Etf.AtomForm.text MAXATOMLEN_UTF8
  split
  · rw [Etf.latin1Text, List.length_map]
    omega
  · have := utf8 name.toList
    omega

/-- The type that a first byte stands for. -/
def typeOf : List UInt8 → UInt8
  | 115 :: _ | 118 :: _ | 119 :: _ => 100
  | 70 :: _ => 99
  | code :: _ => code
  | [] => 0

/-- `ei_get_type` looks at the first byte, and finds a length behind it. -/
theorem getType_writes {t : Etf.Tag} {b : List UInt8} (writes : t.Writes b) (rest : List UInt8) :
    ∃ len, getType (b ++ rest) = .ok (typeOf b, len) := by
  cases writes with
  | smallInteger | integer | newFloat | nil | map => exact ⟨0, rfl⟩
  | @smallBig digits negative fits =>
    have length := get_bigEndian (k := 1) fits (Etf.signByte negative :: digits ++ rest)
    refine ⟨digits.length, ?_⟩
    rw [List.cons_append, List.append_assoc, getType, length]
    rfl
  | @largeBig digits negative fits =>
    have length := get_bigEndian (k := 4) fits (Etf.signByte negative :: digits ++ rest)
    refine ⟨Etf.signed digits.length, ?_⟩
    rw [List.cons_append, List.append_assoc, getType, length]
    rfl
  | @atom form name allows =>
    have length := get_bigEndian allows.fits (form.text name ++ rest)
    refine ⟨(form.text name).length, ?_⟩
    rw [List.cons_append, List.append_assoc]
    cases form <;>
      (simp only [Etf.AtomForm.code, Etf.AtomForm.width] at length ⊢; rw [getType, length]; rfl)
  | @binary bytes fits =>
    have length := get_bigEndian (k := 4) fits (bytes ++ rest)
    refine ⟨Etf.signed bytes.length, ?_⟩
    rw [List.cons_append, List.append_assoc, getType, length]
    rfl
  | @string bytes fits =>
    have length := get_bigEndian (k := 2) fits (bytes ++ rest)
    refine ⟨bytes.length, ?_⟩
    rw [List.cons_append, List.append_assoc, getType, length]
    rfl
  | @smallTuple arity fits =>
    refine ⟨arity, ?_⟩
    rw [List.cons_append, getType, get_bigEndian (k := 1) fits]
    rfl
  | @largeTuple arity fits =>
    refine ⟨Etf.signed arity, ?_⟩
    rw [List.cons_append, getType, get_bigEndian (k := 4) fits]
    rfl
  | @list length fits =>
    refine ⟨Etf.signed length, ?_⟩
    rw [List.cons_append, getType, get_bigEndian (k := 4) fits]
    rfl

/-- Only an empty list has the type of one. -/
theorem typeOf_ne_nil {t : Etf.Tag} {b : List UInt8} (writes : t.Writes b) (other : t ≠ .nil) :
    typeOf b ≠ 106 := by
  cases writes with
  | @atom form => cases form <;> simp [typeOf, Etf.AtomForm.code]
  | nil => exact absurd rfl other
  | _ => simp [typeOf]

/-- **A tag with nothing inside is skipped.** -/
theorem skipTermIn_leaf {t : Etf.Tag} {b : List UInt8} (writes : t.Writes b)
    (leaf : t.inside = 0) (short : b.length < 2 ^ 31) (depth : Nat) (rest : List UInt8) :
    skipTermIn (depth + 1) (b ++ rest) = .ok (true, rest) := by
  obtain ⟨len, type⟩ := getType_writes writes rest
  rw [skipTermIn, type, Verdict.bind]
  have long := decodeLong_writes writes short rest
  cases writes with
  | smallInteger n =>
    have small := eiDecodeLong_small (v := n.toNat) (by omega) (by have := n.toNat_lt; omega)
    rw [small] at long
    show returning _ ((decodeLong ([97, n] ++ rest)).map _) = _
    rw [long]
    rfl
  | @integer n fits =>
    have small := eiDecodeLong_small (v := Etf.signed n)
      (by unfold Etf.signed; split <;> omega) (by unfold Etf.signed; split <;> omega)
    rw [small] at long
    show returning _ ((decodeLong (98 :: Etf.bigEndian 4 n ++ rest)).map _) = _
    rw [long]
    rfl
  | @smallBig digits negative fits =>
    have length := get_bigEndian (k := 1) fits (Etf.signByte negative :: digits ++ rest)
    have passed := pass_append (Etf.signByte negative :: digits) rest
    rw [List.length_cons, Nat.add_comm] at passed
    rw [List.cons_append, List.append_assoc]
    show returning _ (passBig (110 :: _)) = _
    rw [passBig, length, Verdict.bind, passed]
    rfl
  | @largeBig digits negative fits =>
    have length := get_bigEndian (k := 4) fits (Etf.signByte negative :: digits ++ rest)
    have passed := pass_append (Etf.signByte negative :: digits) rest
    rw [List.length_cons, Nat.add_comm] at passed
    rw [List.cons_append, List.append_assoc]
    show returning _ (passBig (111 :: _)) = _
    rw [passBig, length, Verdict.bind, passed]
    rfl
  | @newFloat bits eight =>
    have passed := pass_append bits rest
    rw [eight] at passed
    show returning _ (passDouble (70 :: (bits ++ rest))) = _
    rw [passDouble, passed]
    rfl
  | @atom form name allows =>
    have passed : passAtom (form.code ::
        (Etf.bigEndian form.width (form.text name).length ++ form.text name) ++ rest) =
          .ok rest := by
      rw [passAtom, atomHeader_writes allows, Verdict.bind,
        if_neg (Nat.not_le_of_lt (length_text allows)), pass_append]
    cases form <;> (show returning _ (passAtom _) = _; rw [passed]; rfl)
  | @binary bytes fits =>
    obtain ⟨decoded, -⟩ := decodeBinary_writes (.binary fits) short rest
    show returning _ ((decodeBinary _).map _) = _
    rw [decoded]
    rfl
  | @string bytes fits =>
    have length := get_bigEndian (k := 2) fits (bytes ++ rest)
    rw [List.cons_append, List.append_assoc]
    show returning _ (passString (107 :: _)) = _
    rw [passString, length, Verdict.bind, pass_append]
    rfl
  | nil => rfl
  | @smallTuple arity fits =>
    obtain rfl : arity = 0 := leaf
    rfl
  | @largeTuple arity fits =>
    obtain rfl : arity = 0 := leaf
    rfl
  | list => exact absurd leaf (Nat.succ_ne_zero _)
  | @map arity fits =>
    obtain rfl : arity = 0 := by
      have : 2 * arity = 0 := leaf
      omega
    rfl

/-! ## A tag with terms inside -/

theorem skipTermIn_tuple {arity : Nat} {b : List UInt8} (writes : (Etf.Tag.tuple arity).Writes b)
    (small : arity < 2 ^ 31) (depth : Nat) (rest : List UInt8) :
    skipTermIn (depth + 1) (b ++ rest) =
      (skipEach (skipTermIn depth) arity rest).map fun s => (true, s) := by
  obtain ⟨len, type⟩ := getType_writes writes rest
  have header := decodeTupleHeader_writes writes small rest
  rw [skipTermIn, type, Verdict.bind]
  cases writes <;> (dsimp only; rw [header, Verdict.bind, Int.toNat_natCast]; rfl)

theorem skipTermIn_list {length : Nat} {b : List UInt8} (writes : (Etf.Tag.list length).Writes b)
    (small : length < 2 ^ 31) (depth : Nat) (rest : List UInt8) :
    skipTermIn (depth + 1) (b ++ rest) =
      (skipEach (skipTermIn depth) length rest).bind (skipTail (skipTermIn depth)) := by
  obtain ⟨header, type⟩ := decodeListHeader_writes writes small rest
  rw [skipTermIn, type, Verdict.bind]
  dsimp only
  rw [header, Verdict.bind, Int.toNat_natCast]
  rfl

theorem skipTermIn_map {size : Nat} {b : List UInt8} (writes : (Etf.Tag.map size).Writes b)
    (small : size < 2 ^ 31) (depth : Nat) (rest : List UInt8) :
    skipTermIn (depth + 1) (b ++ rest) =
      (skipEach (skipTermIn depth) size rest).map fun s => (true, s) := by
  obtain ⟨len, type⟩ := getType_writes writes rest
  obtain ⟨arity, rfl, header⟩ := decodeMapHeader_writes writes small rest
  have twice : (2 * (arity : Int)).toNat = 2 * arity := by omega
  have code : typeOf b = 116 := by
    generalize size : 2 * arity = n at writes
    cases writes
    rfl
  rw [skipTermIn, type, Verdict.bind, code]
  dsimp only
  rw [header, Verdict.bind, twice]
  rfl

/-! ## Whole terms -/

theorem length_le_tagsAll (es : List ExtTerm) : es.length ≤ (tagsAll es).length := by
  induction es with
  | nil => exact Nat.le_refl _
  | cons e es ih =>
    obtain ⟨inside, whole⟩ := exists_tags e
    rw [tagsAll, List.length_append, whole, List.length_cons, List.length_cons]
    omega

/-- The stream in memory, of which there are less than `2 ^ 31` bytes: integers, floats in the new
format, atoms, binaries, strings, lists, tuples and maps, each in any of the forms that `Tag.Writes`
has for it. A pid, a port, a reference, a function, an export, a bitstring or a float in the old
format has none. -/
structure Written (stream : List Etf.Tag) (b : List UInt8) : Prop where
  short : b.length < 2 ^ 31
  writes : Etf.WritesAll stream b

namespace Written

variable {stream stream' : List Etf.Tag} {b : List UInt8}

theorem length_le (written : Written stream b) : stream.length ≤ b.length :=
  written.writes.length_le

/-- The bytes of the first tag are in front. -/
theorem cons {t : Etf.Tag} (written : Written (t :: stream) b) :
    ∃ b₁ b₂, b = b₁ ++ b₂ ∧ t.Writes b₁ ∧ b₁.length < 2 ^ 31 ∧ Written stream b₂ := by
  obtain ⟨short, writes⟩ := written
  cases writes with
  | @cons _ _ b₁ b₂ head tail =>
    rw [List.length_append] at short
    exact ⟨b₁, b₂, rfl, head, by omega, by omega, tail⟩

theorem eq_nil (written : Written [] b) : b = [] := by
  cases written.writes
  rfl

theorem alone {t : Etf.Tag} (written : Written [t] b) : t.Writes b := by
  obtain ⟨b₁, b₂, rfl, writes, -, rest⟩ := written.cons
  rwa [rest.eq_nil, List.append_nil]

theorem append (written : Written (stream ++ stream') b) :
    ∃ b₁ b₂, b = b₁ ++ b₂ ∧ Written stream b₁ ∧ Written stream' b₂ := by
  obtain ⟨short, writes⟩ := written
  obtain ⟨b₁, b₂, rfl, first, second⟩ := writes.split
  rw [List.length_append] at short
  exact ⟨b₁, b₂, rfl, ⟨by omega, first⟩, ⟨by omega, second⟩⟩

end Written

theorem skipTermIn_alone {depth : Nat} {t : Etf.Tag} {b : List UInt8} (written : Written [t] b)
    (leaf : t.inside = 0) (deep : 1 ≤ depth) (rest : List UInt8) :
    skipTermIn depth (b ++ rest) = .ok (true, rest) := by
  obtain ⟨depth, rfl⟩ := Nat.exists_eq_add_of_le' deep
  exact skipTermIn_leaf written.alone leaf written.short depth rest

/-- The tail of a list is skipped, an empty list or not. -/
theorem skipTail_term {depth : Nat} {tail : ExtTerm} {b rest : List UInt8}
    (written : Written tail.tags b) (skips : skipTermIn depth (b ++ rest) = .ok (true, rest)) :
    skipTail (skipTermIn depth) (b ++ rest) = .ok (true, rest) := by
  by_cases isNil : tail = .nil
  · rw [isNil] at written
    cases written.alone
    rfl
  · obtain ⟨inside, whole⟩ := exists_tags tail
    rw [whole] at written
    obtain ⟨b₁, b₂, rfl, writes, -, -⟩ := written.cons
    have other : tail.head ≠ .nil := by
      cases tail <;> simp_all [ExtTerm.head]
    obtain ⟨len, type⟩ := getType_writes writes (b₂ ++ rest)
    rw [← List.append_assoc] at type
    rw [skipTail, type, Verdict.bind, if_pos (typeOf_ne_nil writes other), skips]
    rfl

mutual

/-- **`ei_skip_term` moves the cursor over a term**, whatever is in it. -/
theorem skipTermIn_term {depth : Nat} {b : List UInt8} (rest : List UInt8) :
    (e : ExtTerm) → Written e.tags b → e.tags.length ≤ depth →
      skipTermIn depth (b ++ rest) = .ok (true, rest)
  | .int _, written, deep | .float _, written, deep | .atom _, written, deep
  | .binary _, written, deep | .string _, written, deep | .nil, written, deep
  | .other, written, deep => skipTermIn_alone written rfl deep rest
  | .tuple elems, written, deep => by
    rw [ExtTerm.tags, List.length_cons] at deep
    obtain ⟨depth, rfl⟩ := Nat.exists_eq_add_of_le' (Nat.le_trans (Nat.le_add_left 1 _) deep)
    rw [ExtTerm.tags] at written
    obtain ⟨b₁, b₂, rfl, writes, -, inside⟩ := written.cons
    have small := (length_le_tagsAll elems).trans_lt (inside.length_le.trans_lt inside.short)
    rw [List.append_assoc, skipTermIn_tuple writes small,
      skipEach_terms rest elems inside (Nat.le_of_succ_le_succ deep)]
    rfl
  | .list elems tail, written, deep => by
    rw [ExtTerm.tags, List.length_cons, List.length_append] at deep
    obtain ⟨depth, rfl⟩ := Nat.exists_eq_add_of_le' (Nat.le_trans (Nat.le_add_left 1 _) deep)
    rw [ExtTerm.tags] at written
    obtain ⟨b₁, b₂, rfl, writes, -, inside⟩ := written.cons
    obtain ⟨b₃, b₄, rfl, before, behind⟩ := inside.append
    have small := (length_le_tagsAll elems).trans_lt (before.length_le.trans_lt before.short)
    rw [List.append_assoc, skipTermIn_list writes small, List.append_assoc,
      skipEach_terms (b₄ ++ rest) elems before (by omega)]
    exact skipTail_term behind (skipTermIn_term rest tail behind (by omega))
  | .map keysAndValues, written, deep => by
    rw [ExtTerm.tags, List.length_cons] at deep
    obtain ⟨depth, rfl⟩ := Nat.exists_eq_add_of_le' (Nat.le_trans (Nat.le_add_left 1 _) deep)
    rw [ExtTerm.tags] at written
    obtain ⟨b₁, b₂, rfl, writes, -, inside⟩ := written.cons
    have small :=
      (length_le_tagsAll keysAndValues).trans_lt (inside.length_le.trans_lt inside.short)
    rw [List.append_assoc, skipTermIn_map writes small,
      skipEach_terms rest keysAndValues inside (Nat.le_of_succ_le_succ deep)]
    rfl

theorem skipEach_terms {depth : Nat} {b : List UInt8} (rest : List UInt8) :
    (es : List ExtTerm) → Written (tagsAll es) b → (tagsAll es).length ≤ depth →
      skipEach (skipTermIn depth) es.length (b ++ rest) = .ok rest
  | [], written, _ => by
    rw [tagsAll] at written
    rw [written.eq_nil]
    rfl
  | e :: es, written, deep => by
    rw [tagsAll, List.length_append] at deep
    rw [tagsAll] at written
    obtain ⟨b₁, b₂, rfl, head, tail⟩ := written.append
    rw [List.length_cons, skipEach, List.append_assoc,
      skipTermIn_term (b₂ ++ rest) e head (by omega)]
    exact skipEach_terms rest es tail (by omega)

end

/-- The memory holds more bytes than terms can be inside one another. -/
theorem skipTerm_written {e : ExtTerm} {b : List UInt8} (written : Written e.tags b)
    (rest : List UInt8) : skipTerm (b ++ rest) = .ok (true, rest) := by
  refine skipTermIn_term rest e written ?_
  have fits := written.length_le
  rw [List.length_append]
  omega

end Ei

end CircuitsUart
