import CircuitsUart.Port.Ei

/-!
# What the decoders make of a tag

Whatever form a tag is written in, `ei_decode_*` make of its bytes what `Port` says they make of
the tag, and leave the cursor behind them.

There is one theorem for each decoder, of **any** tag: one of the wrong kind is refused in bytes as
it is among tags, and that takes as many cases as the right ones. The work is in two places. An
atom may be in Latin-1 or in UTF-8, and the program wants Latin-1: a character that has none ends
the conversion, and what was stored up to there stays stored. And an integer of any size is a
`long` if its digits behind the eighth are zero, which `ei_decode_longlong` checks digit by digit.

A boolean is not an atom to `ei_decode_boolean`, but five bytes or six that are compared with
`true` or `false` and their NULs. `booleanText_name` says that only these two names pass.
-/

set_option autoImplicit false

namespace CircuitsUart

open Lib Port

namespace Ei

theorem get_bigEndian {k n : Nat} (fits : n < 256 ^ k) (rest : List UInt8) :
    get k (Etf.bigEndian k n ++ rest) = .ok (n, rest) := by
  rw [get, Etf.word_bigEndian fits]

theorem get_one (b : UInt8) (rest : List UInt8) : get 1 (b :: rest) = .ok (b.toNat, rest) := by
  rw [get, Etf.word_one]

theorem take_append (bytes rest : List UInt8) :
    take bytes.length (bytes ++ rest) = .ok (bytes, rest) := by
  rw [take, Etf.cut_append]

theorem signed_of_lt {n : Nat} (h : n < 2 ^ 31) : Etf.signed n = n := if_pos h

/-! ## Atoms -/

theorem atomHeader_writes {form : Etf.AtomForm} {name : String} (allows : form.Allows name)
    (rest : List UInt8) :
    atomHeader (form.code :: (Etf.bigEndian form.width (form.text name).length ++ form.text name) ++
      rest) = .ok (!form.isLatin1, (form.text name).length, form.text name ++ rest) := by
  have length := get_bigEndian allows.fits (form.text name ++ rest)
  rw [List.cons_append, List.append_assoc]
  cases form <;>
    (simp only [Etf.AtomForm.code, Etf.AtomForm.width] at length ⊢; rw [atomHeader, length]; rfl)

/-- Only an atom has the header of one. -/
theorem atomHeader_failed {t : Etf.Tag} {b : List UInt8} (writes : t.Writes b)
    (other : ∀ name, t ≠ .atom name) (rest : List UInt8) : atomHeader (b ++ rest) = .failed := by
  cases writes with
  | atom => exact absurd rfl (other _)
  | _ => rfl

/-- In UTF-8 a character of Latin-1 is one byte or two, and any other begins with a byte that no
character of Latin-1 begins with. -/
theorem utf8_char (c : Char) : (c.toNat < 128 ∧ String.utf8EncodeChar c = [UInt8.ofNat c.toNat]) ∨
    (128 ≤ c.toNat ∧ c.toNat < 256 ∧ String.utf8EncodeChar c =
      [UInt8.ofNat (c.toNat / 64 + 0xC0), UInt8.ofNat (c.toNat % 64 + 0x80)]) ∨
    (256 ≤ c.toNat ∧ ∃ b bs, String.utf8EncodeChar c = b :: bs ∧ 0xC4 ≤ b.toNat) := by
  have value : c.val.toNat = c.toNat := rfl
  unfold String.utf8EncodeChar
  simp only [value]
  by_cases one : c.toNat ≤ 0x7f
  · exact .inl ⟨by omega, if_pos one⟩
  · right
    simp only [if_neg one]
    by_cases two : c.toNat ≤ 0x7ff
    · simp only [if_pos two]
      by_cases latin1 : c.toNat < 256
      · left
        refine ⟨by omega, latin1, ?_⟩
        rw [Nat.mod_eq_of_lt (show c.toNat / 64 < 0x20 by omega)]
      · right
        refine ⟨by omega, _, _, rfl, ?_⟩
        rw [UInt8.toNat_ofNat']
        omega
    · simp only [if_neg two]
      right
      refine ⟨by omega, ?_⟩
      split
      · refine ⟨_, _, rfl, ?_⟩
        rw [UInt8.toNat_ofNat']
        omega
      · refine ⟨_, _, rfl, ?_⟩
        rw [UInt8.toNat_ofNat']
        omega

/-! The masks of `utf8_to_latin1`. -/

set_option maxRecDepth 4000 in
theorem ascii_iff (b : UInt8) : b &&& 0x80 = 0 ↔ b.toNat < 128 := by
  have all : ∀ n < 256, UInt8.ofNat n &&& 0x80 = 0 ↔ n < 128 := by decide
  have := all b.toNat b.toNat_lt
  rwa [UInt8.ofNat_toNat] at this

set_option maxRecDepth 4000 in
theorem latin1_lead_iff (b : UInt8) : b &&& 0xFE = 0xC2 ↔ b.toNat = 0xC2 ∨ b.toNat = 0xC3 := by
  have all : ∀ n < 256, UInt8.ofNat n &&& 0xFE = 0xC2 ↔ n = 0xC2 ∨ n = 0xC3 := by decide
  have := all b.toNat b.toNat_lt
  rwa [UInt8.ofNat_toNat] at this

set_option maxRecDepth 4000 in
/-- Two bytes of UTF-8 give the character back. -/
theorem latin1_two {n : Nat} (high : 128 ≤ n) (latin1 : n < 256) :
    UInt8.ofNat (n / 64 + 0xC0) &&& 0xFE = 0xC2 ∧ UInt8.ofNat (n % 64 + 0x80) &&& 0xC0 = 0x80 ∧
      UInt8.ofNat (n / 64 + 0xC0) <<< 6 ||| UInt8.ofNat (n % 64 + 0x80) &&& 0x3F =
        UInt8.ofNat n := by
  have all : ∀ n < 256, 128 ≤ n → UInt8.ofNat (n / 64 + 0xC0) &&& 0xFE = 0xC2 ∧
      UInt8.ofNat (n % 64 + 0x80) &&& 0xC0 = 0x80 ∧
      UInt8.ofNat (n / 64 + 0xC0) <<< 6 ||| UInt8.ofNat (n % 64 + 0x80) &&& 0x3F =
        UInt8.ofNat n := by decide
  exact all n latin1 high

/-! What `utf8_to_latin1` does with the next character. -/

section

variable {b b' : UInt8} (destlen : Nat) (src : List UInt8)

theorem utf8ToLatin1_ascii (ascii : b &&& 0x80 = 0) :
    utf8ToLatin1 (destlen + 1) (b :: src) =
      (b :: (utf8ToLatin1 destlen src).1, (utf8ToLatin1 destlen src).2) := by
  cases src <;> simp [utf8ToLatin1, ascii]

theorem utf8ToLatin1_two (high : ¬ b &&& 0x80 = 0) (lead : b &&& 0xFE = 0xC2)
    (tail : b' &&& 0xC0 = 0x80) :
    utf8ToLatin1 (destlen + 1) (b :: b' :: src) =
      ((b <<< 6 ||| b' &&& 0x3F) :: (utf8ToLatin1 destlen src).1,
        (utf8ToLatin1 destlen src).2) := by
  rw [utf8ToLatin1, if_neg high, if_pos ⟨lead, tail⟩]

theorem utf8ToLatin1_other (high : ¬ b &&& 0x80 = 0) (other : ¬ b &&& 0xFE = 0xC2) :
    utf8ToLatin1 (destlen + 1) (b :: src) = ([], false) := by
  cases src <;> simp [utf8ToLatin1, high, other]

end

/-- **The conversion stops before the first character that Latin-1 does not have.** -/
theorem utf8ToLatin1_text {destlen : Nat} {chars : List Char} (room : chars.length ≤ destlen) :
    utf8ToLatin1 destlen (Etf.utf8Text chars) =
      (Etf.latin1Text (chars.takeWhile fun c => c.toNat ≤ 255),
        decide (chars.takeWhile (fun c => c.toNat ≤ 255) = chars)) := by
  induction chars generalizing destlen with
  | nil => cases destlen <;> rfl
  | cons c chars ih =>
    obtain ⟨destlen, rfl⟩ := Nat.exists_eq_add_of_le' (Nat.le_trans (Nat.le_add_left 1 _) room)
    have rest := ih (Nat.le_of_succ_le_succ room)
    have text : Etf.utf8Text (c :: chars) = String.utf8EncodeChar c ++ Etf.utf8Text chars := rfl
    rw [text]
    obtain ⟨small, encoded⟩ | ⟨high, latin1, encoded⟩ | ⟨beyond, b, bs, encoded, lead⟩ :=
      utf8_char c
    · have here : UInt8.ofNat c.toNat &&& 0x80 = 0 := by
        rw [ascii_iff, UInt8.toNat_ofNat', Nat.mod_eq_of_lt (by omega)]
        exact small
      have taken : decide (c.toNat ≤ 255) = true := decide_eq_true (by omega)
      rw [encoded, List.singleton_append, utf8ToLatin1_ascii _ _ here, rest]
      simp [Etf.latin1Text, taken]
    · have lead : ¬ UInt8.ofNat (c.toNat / 64 + 0xC0) &&& 0x80 = 0 := by
        rw [ascii_iff, UInt8.toNat_ofNat']
        omega
      have taken : decide (c.toNat ≤ 255) = true := decide_eq_true (by omega)
      obtain ⟨first, second, both⟩ := latin1_two high latin1
      rw [encoded, List.cons_append, List.singleton_append,
        utf8ToLatin1_two _ _ lead first second, rest, both]
      simp [Etf.latin1Text, taken]
    · have high : ¬ b &&& 0x80 = 0 := by
        rw [ascii_iff]
        omega
      have other : ¬ b &&& 0xFE = 0xC2 := by
        rw [latin1_lead_iff]
        omega
      have stops : decide (c.toNat ≤ 255) = false := decide_eq_false (by omega)
      rw [encoded, List.cons_append, utf8ToLatin1_other _ _ high other]
      simp [Etf.latin1Text, stops]

theorem toNat_ofNat_latin1 {c : Char} (latin1 : c.toNat ≤ 255) :
    (UInt8.ofNat c.toNat).toNat = c.toNat := by
  rw [UInt8.toNat_ofNat', Nat.mod_eq_of_lt (by omega)]

/-- The C string of a text in Latin-1 ends before its first NUL. -/
theorem string_latin1 {chars : List Char} (latin1 : ∀ c ∈ chars, c.toNat ≤ 255) :
    string (Etf.latin1Text chars) = String.ofList (chars.takeWhile fun c => c.toNat ≠ 0) := by
  unfold string Program.cString Etf.latin1Text
  congr 1
  induction chars with
  | nil => rfl
  | cons c chars ih =>
    obtain ⟨here, rest⟩ := List.forall_mem_cons.mp latin1
    have byte := toNat_ofNat_latin1 here
    by_cases nul : c.toNat = 0
    · simp [nul]
    · have kept : UInt8.ofNat c.toNat ≠ 0 := fun zero => nul (by rw [← byte, zero]; rfl)
      have next := ih rest
      simp only [ne_eq, decide_not] at next
      simp [kept, nul, byte, next]

section

variable {s text rest : List UInt8} (size : Nat)

theorem decodeAtom_latin1 (header : atomHeader s = .ok (false, text.length, text ++ rest))
    (short : text.length < MAXATOMLEN) :
    decodeAtom size s = if size < text.length + 1 then .overrun else .ok (string text, rest) := by
  rw [decodeAtom, header]
  simp [Verdict.bind, take_append, Nat.not_le_of_lt short]

theorem decodeAtom_utf8 (header : atomHeader s = .ok (true, text.length, text ++ rest))
    {latin1 : List UInt8} {whole : Bool}
    (converted : utf8ToLatin1 (MAXATOMLEN - 1) text = (latin1, whole)) :
    decodeAtom size s =
      if size < latin1.length + whole.toNat then .overrun
      else if whole then .ok (string latin1, rest) else .failed := by
  rw [decodeAtom, header]
  simp [Verdict.bind, take_append, converted]

end

/-- **`ei_decode_atom`**, of any tag in any form. -/
theorem decodeAtom_writes {t : Etf.Tag} {b : List UInt8} (writes : t.Writes b) (size : Nat)
    (rest : List UInt8) :
    decodeAtom size (b ++ rest) = (eiDecodeAtom size t).map fun name => (name, rest) := by
  by_cases isAtom : ∃ name, t = .atom name
  · obtain ⟨name, rfl⟩ := isAtom
    cases writes with
    | @atom form name allows =>
      have header := atomHeader_writes allows rest
      have short := allows.short
      have stays : ∀ c ∈ name.toList.takeWhile fun c => c.toNat ≤ 255, c.toNat ≤ 255 :=
        fun c inside => by simpa using List.mem_takeWhile_imp inside
      have length (chars : List Char) : (Etf.latin1Text chars).length = chars.length :=
        List.length_map ..
      dsimp only [eiDecodeAtom]
      cases latin1 : form.isLatin1 with
      | true =>
        have text : form.text name = Etf.latin1Text name.toList := if_pos latin1
        have all : name.toList.takeWhile (fun c => c.toNat ≤ 255) = name.toList :=
          List.takeWhile_eq_self_iff.mpr fun c inside =>
            decide_eq_true (Nat.le_of_lt_succ (allows.latin1 latin1 c inside))
        rw [all] at stays
        rw [latin1, text] at header
        rw [text, decodeAtom_latin1 size header (by rw [length]; exact Nat.lt_succ_of_le short),
          length, string_latin1 stays, all, if_pos rfl]
        split <;> rfl
      | false =>
        have text : form.text name = Etf.utf8Text name.toList :=
          if_neg (by rw [latin1]; exact Bool.false_ne_true)
        rw [latin1, text] at header
        rw [text, decodeAtom_utf8 size header (utf8ToLatin1_text short), length]
        by_cases all : name.toList.takeWhile (fun c => c.toNat ≤ 255) = name.toList
        · rw [all] at stays
          rw [if_pos all, decide_eq_true all, all, string_latin1 stays, Bool.toNat_true, if_pos rfl]
          split <;> rfl
        · rw [if_neg all, decide_eq_false all, Bool.toNat_false, Nat.add_zero,
            if_neg Bool.false_ne_true]
          split <;> rfl
  · have other : ∀ name, t ≠ .atom name := fun name same => isAtom ⟨name, same⟩
    unfold decodeAtom
    rw [atomHeader_failed writes other]
    cases t with
    | atom name => exact absurd rfl (other name)
    | _ => rfl

/-! ## Booleans -/

/-- The comparisons of `ei_decode_boolean`. -/
def booleanText (text : List UInt8) : Verdict Bool :=
  if 6 ≤ text.length then .failed
  else if text.any fun b => b &&& 0x80 ≠ 0 then .failed
  else if (text ++ [0]).take 5 = ascii "true" ++ [0] then .ok true
  else if (text ++ [0]).take 6 = ascii "false" ++ [0] then .ok false
  else .failed

theorem decodeBoolean_text {s text rest : List UInt8} {utf8 : Bool}
    (header : atomHeader s = .ok (utf8, text.length, text ++ rest)) :
    decodeBoolean s = (booleanText text).map fun v => (v, rest) := by
  rw [decodeBoolean, header]
  simp only [Verdict.bind, take_append, booleanText]
  split
  · rfl
  · split
    · rfl
    · split
      · rfl
      · split <;> rfl

theorem utf8ToLatin1_allAscii {destlen : Nat} {src : List UInt8} (room : src.length ≤ destlen)
    (ascii : ∀ b ∈ src, b &&& 0x80 = 0) : utf8ToLatin1 destlen src = (src, true) := by
  induction src generalizing destlen with
  | nil => cases destlen <;> rfl
  | cons b src ih =>
    obtain ⟨destlen, rfl⟩ := Nat.exists_eq_add_of_le' (Nat.le_trans (Nat.le_add_left 1 _) room)
    obtain ⟨here, there⟩ := List.forall_mem_cons.mp ascii
    rw [utf8ToLatin1_ascii _ _ here, ih (Nat.le_of_succ_le_succ room) there]

/-- A text in ASCII is the name, in either encoding. -/
theorem name_of_ascii {form : Etf.AtomForm} {name : String} (allows : form.Allows name)
    (short : (form.text name).length ≤ 255) (ascii : ∀ b ∈ form.text name, b &&& 0x80 = 0) :
    name = String.ofList ((form.text name).map fun b => Char.ofNat b.toNat) := by
  have latin1 : form.text name = Etf.latin1Text name.toList ∧ ∀ c ∈ name.toList, c.toNat < 256 := by
    cases h : form.isLatin1 with
    | true => exact ⟨if_pos h, allows.latin1 h⟩
    | false =>
      have text : form.text name = Etf.utf8Text name.toList :=
        if_neg (by rw [h]; exact Bool.false_ne_true)
      have converted : utf8ToLatin1 255 (Etf.utf8Text name.toList) = _ :=
        utf8ToLatin1_text allows.short
      rw [← text, utf8ToLatin1_allAscii short ascii, Prod.mk.injEq] at converted
      have all : name.toList.takeWhile (fun c => c.toNat ≤ 255) = name.toList :=
        of_decide_eq_true converted.2.symm
      refine ⟨by rw [converted.1, all], fun c inside => ?_⟩
      have := List.takeWhile_eq_self_iff.mp all c inside
      exact Nat.lt_succ_of_le (of_decide_eq_true this)
  obtain ⟨text, small⟩ := latin1
  rw [text, Etf.AtomForm.latin1Text_chars small, String.ofList_toList]

/-- `memcmp` of a text and its NUL with a word and its NUL. -/
theorem compare_eq {text word : List UInt8}
    (same : (text ++ [0]).take (word.length + 1) = word ++ [0]) :
    text = word ∨ word ++ [0] <+: text := by
  by_cases longer : word.length + 1 ≤ text.length
  · rw [List.take_append_of_le_length longer] at same
    exact .inr (same ▸ List.take_prefix _ _)
  · rw [List.take_of_length_le (by rw [List.length_append, List.length_singleton]; omega)] at same
    exact .inl (List.append_cancel_right same)

/-- What is taken for a boolean. -/
theorem booleanText_ok {text : List UInt8} {v : Bool} (h : booleanText text = .ok v) :
    text.length ≤ 255 ∧ (∀ b ∈ text, b &&& 0x80 = 0) ∧
      (text = ascii "true" ∨ text = ascii "true\x00" ∨ text = ascii "false") := by
  unfold booleanText at h
  split at h
  · exact absurd h (by simp)
  · next short =>
    split at h
    · exact absurd h (by simp)
    · next low =>
      refine ⟨by omega, by simpa using low, ?_⟩
      split at h
      · next isTrue =>
        obtain rfl | longer : text = ascii "true" ∨ ascii "true" ++ [0] <+: text :=
          compare_eq isTrue
        · exact .inl rfl
        · have five := Nat.le_of_lt_succ (Nat.lt_of_not_le short)
          exact .inr (.inl (longer.eq_of_length_le five).symm)
      · split at h
        · next isFalse =>
          obtain rfl | longer : text = ascii "false" ∨ ascii "false" ++ [0] <+: text :=
            compare_eq isFalse
          · exact .inr (.inr rfl)
          · exact absurd longer.length_le short
        · exact absurd h (by simp)

/-- The names that are taken for a boolean. -/
theorem booleanText_name {form : Etf.AtomForm} {name : String} (allows : form.Allows name) :
    booleanText (form.text name) = eiDecodeBoolean (.atom name) := by
  by_cases known : name = "true" ∨ name = "true\x00" ∨ name = "false"
  · rcases known with rfl | rfl | rfl
    · cases form <;> decide
    · cases form <;> decide
    · cases form <;> decide
  · have refused : eiDecodeBoolean (.atom name) = .failed := by
      unfold eiDecodeBoolean
      split <;> simp_all
    rw [refused]
    cases taken : booleanText (form.text name) with
    | ok v =>
      obtain ⟨short, low, words⟩ := booleanText_ok taken
      have isName := name_of_ascii allows short low
      refine absurd ?_ known
      rw [isName]
      rcases words with word | word | word
      · exact .inl (by rw [word]; decide)
      · exact .inr (.inl (by rw [word]; decide))
      · exact .inr (.inr (by rw [word]; decide))
    | failed => rfl
    | overrun =>
      unfold booleanText at taken
      repeat' split at taken
      all_goals exact absurd taken (by simp)

/-- **`ei_decode_boolean`**, of any tag in any form. -/
theorem decodeBoolean_writes {t : Etf.Tag} {b : List UInt8} (writes : t.Writes b)
    (rest : List UInt8) :
    decodeBoolean (b ++ rest) = (eiDecodeBoolean t).map fun v => (v, rest) := by
  by_cases isAtom : ∃ name, t = .atom name
  · obtain ⟨name, rfl⟩ := isAtom
    cases writes with
    | @atom form name allows =>
      rw [decodeBoolean_text (atomHeader_writes allows rest), booleanText_name allows]
  · have other : ∀ name, t ≠ .atom name := fun name same => isAtom ⟨name, same⟩
    unfold decodeBoolean
    rw [atomHeader_failed writes other]
    cases t with
    | atom name => exact absurd rfl (other name)
    | _ => rfl

/-! ## Numbers -/

/-- The digits behind the eighth have to be zero; then the first eight are the number. -/
theorem magnitude_take (digits : List UInt8) :
    if (digits.drop 8).any (fun d => d ≠ 0) then 2 ^ 64 ≤ Etf.magnitude digits
    else Etf.magnitude digits = Etf.magnitude (digits.take 8) := by
  have split := Etf.magnitude_append (digits.take 8) (digits.drop 8)
  rw [List.take_append_drop] at split
  by_cases high : Etf.magnitude (digits.drop 8) = 0
  · have zeros := Etf.magnitude_eq_zero.mp high
    rw [if_neg (by simpa using zeros), split, high, Nat.mul_zero, Nat.add_zero]
  · have some_digit := mt Etf.magnitude_eq_zero.mpr high
    have long : 8 ≤ digits.length := by
      by_contra short
      rw [List.drop_of_length_le (by omega)] at high
      exact high rfl
    rw [if_pos (by simpa using some_digit), split, List.length_take_of_le long]
    have : 256 ^ 8 * 1 ≤ 256 ^ 8 * Etf.magnitude (digits.drop 8) :=
      Nat.mul_le_mul_left _ (Nat.pos_of_ne_zero high)
    omega

theorem eiDecodeLong_long {v : Int} (long : LONG_MIN ≤ v ∧ v ≤ LONG_MAX) :
    eiDecodeLong (.int v) = .ok v := if_pos long

theorem eiDecodeLong_longer {v : Int} (longer : ¬ (LONG_MIN ≤ v ∧ v ≤ LONG_MAX)) :
    eiDecodeLong (.int v) = .failed := if_neg longer

theorem decodeDigits_append (negative : Bool) (digits rest : List UInt8) :
    decodeDigits digits.length (Etf.signByte negative :: (digits ++ rest)) =
      (eiDecodeLong (.int (Etf.bigInt negative digits))).map fun v => (v, rest) := by
  have size := magnitude_take digits
  have low : Etf.magnitude (digits.take 8) < 2 ^ 64 :=
    (Etf.magnitude_lt _).trans_le (Nat.pow_le_pow_right (by decide) (List.length_take_le 8 digits))
  simp only [decodeDigits, get_one, Verdict.bind, take_append]
  by_cases high : (digits.drop 8).any fun d => d ≠ 0
  · rw [if_pos high] at size
    rw [if_pos high, eiDecodeLong_longer]
    · rfl
    · unfold Etf.bigInt LONG_MIN LONG_MAX
      cases negative <;> simp <;> omega
  · rw [if_neg high] at size
    rw [if_neg high, Etf.bigInt, size]
    cases negative with
    | true =>
      rw [if_pos (by decide), if_pos rfl]
      by_cases large : Etf.magnitude (digits.take 8) > 0x8000000000000000
      · rw [if_pos large, eiDecodeLong_longer (by unfold LONG_MIN LONG_MAX; omega)]
        rfl
      · rw [if_neg large, eiDecodeLong_long (by unfold LONG_MIN LONG_MAX; omega)]
        rfl
    | false =>
      rw [if_neg (by decide), if_neg Bool.false_ne_true]
      by_cases large : Etf.magnitude (digits.take 8) > 0x7FFFFFFFFFFFFFFF
      · rw [if_pos large, eiDecodeLong_longer (by unfold LONG_MIN LONG_MAX; omega)]
        rfl
      · rw [if_neg large, eiDecodeLong_long (by unfold LONG_MIN LONG_MAX; omega)]
        rfl

theorem eiDecodeLong_small {v : Int} (low : -2 ^ 31 ≤ v) (high : v < 2 ^ 32) :
    eiDecodeLong (.int v) = .ok v :=
  eiDecodeLong_long (by unfold LONG_MIN LONG_MAX; omega)

/-- **`ei_decode_long`**, of any tag in any form. -/
theorem decodeLong_writes {t : Etf.Tag} {b : List UInt8} (writes : t.Writes b)
    (short : b.length < 2 ^ 31) (rest : List UInt8) :
    decodeLong (b ++ rest) = (eiDecodeLong t).map fun v => (v, rest) := by
  cases writes with
  | smallInteger n =>
    have small := eiDecodeLong_small (v := n.toNat) (by omega) (by have := n.toNat_lt; omega)
    rw [List.cons_append, decodeLong, List.singleton_append, get_one, small]
    rfl
  | @integer n fits =>
    have small := eiDecodeLong_small (v := Etf.signed n)
      (by unfold Etf.signed; split <;> omega) (by unfold Etf.signed; split <;> omega)
    rw [List.cons_append, decodeLong, get_bigEndian fits, small]
    rfl
  | @smallBig digits negative fits =>
    rw [List.cons_append, decodeLong, List.append_assoc, get_bigEndian fits]
    exact decodeDigits_append negative digits rest
  | @largeBig digits negative fits =>
    have positive : digits.length < 2 ^ 31 := by
      simp only [List.length_cons, List.length_append] at short
      omega
    rw [List.cons_append, decodeLong, List.append_assoc, get_bigEndian fits, Verdict.bind,
      signed_of_lt positive]
    exact decodeDigits_append negative digits rest
  | @atom form => cases form <;> rfl
  | _ => rfl

/-! ## Compound terms and binaries -/

theorem decodeTupleHeader_writes {arity : Nat} {b : List UInt8}
    (writes : (Etf.Tag.tuple arity).Writes b) (small : arity < 2 ^ 31) (rest : List UInt8) :
    decodeTupleHeader (b ++ rest) = .ok (arity, rest) := by
  cases writes with
  | smallTuple fits =>
    rw [List.cons_append, decodeTupleHeader, get_bigEndian fits]
    rfl
  | largeTuple fits =>
    rw [List.cons_append, decodeTupleHeader, get_bigEndian fits, Verdict.map, signed_of_lt small]

theorem decodeListHeader_writes {length : Nat} {b : List UInt8}
    (writes : (Etf.Tag.list length).Writes b) (small : length < 2 ^ 31) (rest : List UInt8) :
    decodeListHeader (b ++ rest) = .ok (length, rest) ∧
      getType (b ++ rest) = .ok (108, length) := by
  cases writes with
  | list fits =>
    have length := get_bigEndian (k := 4) fits rest
    rw [List.cons_append, decodeListHeader, getType, length, Verdict.map, Verdict.map,
      signed_of_lt small]
    exact ⟨rfl, rfl⟩

theorem decodeMapHeader_writes {size : Nat} {b : List UInt8} (writes : (Etf.Tag.map size).Writes b)
    (small : size < 2 ^ 31) (rest : List UInt8) :
    ∃ arity : Nat, size = 2 * arity ∧ decodeMapHeader (b ++ rest) = .ok (arity, rest) := by
  cases writes with
  | @map arity fits =>
    refine ⟨arity, rfl, ?_⟩
    rw [List.cons_append, decodeMapHeader, get_bigEndian fits, Verdict.map, signed_of_lt (by omega)]

theorem decodeBinary_writes {bytes b : List UInt8} (writes : (Etf.Tag.binary bytes).Writes b)
    (short : b.length < 2 ^ 31) (rest : List UInt8) :
    decodeBinary (b ++ rest) = .ok (bytes, rest) ∧
      getType (b ++ rest) = .ok (109, bytes.length) := by
  cases writes with
  | binary fits =>
    have small : bytes.length < 2 ^ 31 := by
      simp only [List.length_cons, List.length_append] at short
      omega
    have length := get_bigEndian (k := 4) fits (bytes ++ rest)
    rw [List.cons_append, List.append_assoc, decodeBinary, getType, length, Verdict.bind,
      Verdict.map, signed_of_lt small, if_neg (by omega), Int.toNat_natCast, take_append]
    exact ⟨rfl, rfl⟩

end Ei

end CircuitsUart
