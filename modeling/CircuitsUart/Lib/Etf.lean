import Mathlib

/-!
# The external term format

A term in the external format of the Erlang VM is a stream of tags: each says what kind of term
begins there, with the value of a simple term and the size of a compound one. A tag can be
written in several ways, and `Tag.Writes` has them all. None can be taken for another
(`Tag.read_writes`), so what is written is read back whoever wrote it, and in whatever of its
forms.

A reader of the whole puts terms together from the last tag to the first, so that a compound
term finds its parts on top of what is behind it. A list of terms is written as one tag with its
length or as many with one element each; both are the same cells.

## Tags, not terms

The layer in the middle is the stream of tags, and every user of the format meets it there. A
program that decodes by hand reads one tag after the other and never sees a term; one that encodes
by hand puts tags down and may count the elements of a list wrongly, which no type of terms could
even express. `binary_to_term` is the one reader that asks for whole terms, and `Encodes` says
that a piece of bytes is such terms: its lemmas go from the parts to the whole (`leaf`,
`compound`, `cell`), as an encoder does.

`Tag.other` stands for what no form is given for here: pids, ports, references, functions,
bitstrings. Nothing writes it, so a theorem about all that can be written does not cover them.
-/

set_option autoImplicit false

namespace CircuitsUart.Lib.Etf

/-! ## Numbers -/

/-- So many bytes, the highest first. -/
def bigEndian : Nat → Nat → List UInt8
  | 0, _ => []
  | k + 1, n => UInt8.ofNat (n / 256 ^ k) :: bigEndian k n

/-- The number that bytes make, the highest first. -/
def number (bytes : List UInt8) : Nat := bytes.foldl (fun n b => 256 * n + b.toNat) 0

/-- The number that digits make, the lowest first. -/
def magnitude (digits : List UInt8) : Nat := digits.foldr (fun d n => d.toNat + 256 * n) 0

/-- Four bytes, with a sign. -/
def signed (n : Nat) : Int := if n < 2 ^ 31 then n else (n : Int) - 2 ^ 32

@[simp] theorem length_bigEndian (k n : Nat) : (bigEndian k n).length = k := by
  induction k with
  | zero => rfl
  | succ k ih => exact congrArg (· + 1) ih

theorem foldl_bigEndian (k n acc : Nat) :
    (bigEndian k n).foldl (fun n b => 256 * n + b.toNat) acc = acc * 256 ^ k + n % 256 ^ k := by
  induction k generalizing acc with
  | zero => simp [bigEndian, Nat.mod_one]
  | succ k ih =>
    have split : n % 256 ^ (k + 1) = n % 256 ^ k + 256 ^ k * (n / 256 ^ k % 256) := Nat.mod_pow_succ
    rw [bigEndian, List.foldl_cons, ih, UInt8.toNat_ofNat', split, Nat.pow_succ]
    ring

theorem number_bigEndian {k n : Nat} (fits : n < 256 ^ k) : number (bigEndian k n) = n := by
  rw [number, foldl_bigEndian, Nat.zero_mul, Nat.zero_add, Nat.mod_eq_of_lt fits]

/-- The lowest digit is the last of the highest first. -/
theorem magnitude_reverse (bytes : List UInt8) : magnitude bytes.reverse = number bytes := by
  unfold magnitude number
  rw [List.foldr_reverse]
  simp only [Nat.add_comm]

theorem magnitude_lt (digits : List UInt8) : magnitude digits < 256 ^ digits.length := by
  induction digits with
  | nil => exact Nat.one_pos
  | cons d digits ih =>
    have step : magnitude (d :: digits) = d.toNat + 256 * magnitude digits := rfl
    have byte := d.toNat_lt
    rw [step, List.length_cons, Nat.pow_succ]
    omega

theorem magnitude_append (low high : List UInt8) :
    magnitude (low ++ high) = magnitude low + 256 ^ low.length * magnitude high := by
  induction low with
  | nil => simp [magnitude]
  | cons d low ih =>
    have step (ds : List UInt8) : magnitude (d :: ds) = d.toNat + 256 * magnitude ds := rfl
    rw [List.cons_append, step, step, ih, List.length_cons, Nat.pow_succ]
    ring

theorem magnitude_eq_zero {digits : List UInt8} :
    magnitude digits = 0 ↔ ∀ d ∈ digits, d = 0 := by
  induction digits with
  | nil => simp [magnitude]
  | cons d digits ih =>
    have step : magnitude (d :: digits) = d.toNat + 256 * magnitude digits := rfl
    have zero : d.toNat = 0 ↔ d = 0 := ⟨fun h => UInt8.toNat_inj.mp h, fun h => by rw [h]; rfl⟩
    rw [step, List.forall_mem_cons, ← ih, ← zero]
    omega

/-! ## Cutting off the front -/

/-- So many bytes, and what is behind them. -/
def cut (n : Nat) (s : List UInt8) : Option (List UInt8 × List UInt8) :=
  if n ≤ s.length then some (s.take n, s.drop n) else none

/-- A number of so many bytes, and what is behind them. -/
def word (k : Nat) (s : List UInt8) : Option (Nat × List UInt8) :=
  (cut k s).map fun r => (number r.1, r.2)

@[simp] theorem cut_append (bytes rest : List UInt8) :
    cut bytes.length (bytes ++ rest) = some (bytes, rest) := by
  unfold cut
  rw [if_pos (by simp), List.take_left, List.drop_left]

theorem word_bigEndian {k n : Nat} (fits : n < 256 ^ k) (rest : List UInt8) :
    word k (bigEndian k n ++ rest) = some (n, rest) := by
  have front := cut_append (bigEndian k n) rest
  rw [length_bigEndian] at front
  rw [word, front, Option.map_some, number_bigEndian fits]

theorem word_one (b : UInt8) (rest : List UInt8) : word 1 (b :: rest) = some (b.toNat, rest) := by
  simp [word, cut, number]

/-! ## Tags -/

/-- What the reader meets. The sizes are numbers of terms; the size of a map counts its keys and
its values. A term of any `other` kind, such as a pid, a port, a reference, a function or a
bitstring, is only known to be there: nothing is said of how it is written. -/
inductive Tag
  | int (value : Int)
  | float (bits : List UInt8)
  | atom (name : String)
  | binary (bytes : List UInt8)
  | string (bytes : List UInt8)
  | nil
  | tuple (arity : Nat)
  | list (length : Nat)
  | map (size : Nat)
  | other
  deriving DecidableEq, Repr

/-- How many terms follow inside. A list has its tail behind its elements. -/
def Tag.inside : Tag → Nat
  | .tuple arity => arity
  | .list length => length + 1
  | .map size => size
  | _ => 0

/-- How the name of an atom is written. -/
inductive AtomForm
  | latin1
  | smallLatin1
  | utf8
  | smallUtf8
  deriving DecidableEq, Repr

namespace AtomForm

def code : AtomForm → UInt8
  | .latin1 => 100
  | .smallLatin1 => 115
  | .utf8 => 118
  | .smallUtf8 => 119

/-- The bytes that give the length. -/
def width : AtomForm → Nat
  | .latin1 | .utf8 => 2
  | .smallLatin1 | .smallUtf8 => 1

/-- It is one byte for each character. -/
def isLatin1 : AtomForm → Bool
  | .latin1 | .smallLatin1 => true
  | .utf8 | .smallUtf8 => false

end AtomForm

def latin1Text (chars : List Char) : List UInt8 := chars.map fun c => UInt8.ofNat c.toNat

def utf8Text (chars : List Char) : List UInt8 := chars.flatMap String.utf8EncodeChar

namespace AtomForm

def text (form : AtomForm) (name : String) : List UInt8 :=
  if form.isLatin1 then latin1Text name.toList else utf8Text name.toList

/-- The text of an atom, read. -/
def untext (form : AtomForm) (bytes : List UInt8) : Option String :=
  if form.isLatin1 then some (String.ofList (bytes.map fun b => Char.ofNat b.toNat))
  else bytes.toByteArray.utf8Decode?.map fun chars => String.ofList chars.toList

/-- An atom has 255 characters at most, and its length has to fit. -/
structure Allows (form : AtomForm) (name : String) : Prop where
  short : name.toList.length ≤ 255
  latin1 : form.isLatin1 = true → ∀ c ∈ name.toList, c.toNat < 256
  fits : (form.text name).length < 256 ^ form.width

theorem ofNat_toNat_latin1 {c : Char} (h : c.toNat < 256) :
    Char.ofNat (UInt8.ofNat c.toNat).toNat = c := by
  rw [UInt8.toNat_ofNat', Nat.mod_eq_of_lt h, Char.ofNat_toNat]

theorem latin1Text_chars {chars : List Char} (latin1 : ∀ c ∈ chars, c.toNat < 256) :
    (latin1Text chars).map (fun b => Char.ofNat b.toNat) = chars := by
  unfold latin1Text
  rw [List.map_map]
  exact (List.map_congr_left fun c inside => ofNat_toNat_latin1 (latin1 c inside)).trans
    (List.map_id _)

theorem untext_text {form : AtomForm} {name : String} (allows : form.Allows name) :
    form.untext (form.text name) = some name := by
  unfold untext text
  split
  · next h =>
    rw [latin1Text_chars (allows.latin1 h), String.ofList_toList]
  · have decodes := List.utf8Decode?_utf8Encode (l := name.toList)
    unfold List.utf8Encode at decodes
    rw [utf8Text, decodes]
    simp

end AtomForm

/-- The sign of an integer of any size, before its digits. -/
def signByte (negative : Bool) : UInt8 := if negative then 1 else 0

def bigInt (negative : Bool) (digits : List UInt8) : Int :=
  if negative then -(magnitude digits : Int) else magnitude digits

/-- **A tag is written as these bytes.** -/
inductive Tag.Writes : Tag → List UInt8 → Prop
  | smallInteger (b : UInt8) : Writes (.int b.toNat) [97, b]
  | integer {n : Nat} (fits : n < 2 ^ 32) : Writes (.int (signed n)) (98 :: bigEndian 4 n)
  | smallBig {digits : List UInt8} (negative : Bool) (fits : digits.length < 2 ^ 8) :
      Writes (.int (bigInt negative digits))
        (110 :: (bigEndian 1 digits.length ++ signByte negative :: digits))
  | largeBig {digits : List UInt8} (negative : Bool) (fits : digits.length < 2 ^ 32) :
      Writes (.int (bigInt negative digits))
        (111 :: (bigEndian 4 digits.length ++ signByte negative :: digits))
  | newFloat {bits : List UInt8} (eight : bits.length = 8) : Writes (.float bits) (70 :: bits)
  | atom {form : AtomForm} {name : String} (allows : form.Allows name) :
      Writes (.atom name)
        (form.code :: (bigEndian form.width (form.text name).length ++ form.text name))
  | binary {bytes : List UInt8} (fits : bytes.length < 2 ^ 32) :
      Writes (.binary bytes) (109 :: (bigEndian 4 bytes.length ++ bytes))
  | string {bytes : List UInt8} (fits : bytes.length < 2 ^ 16) :
      Writes (.string bytes) (107 :: (bigEndian 2 bytes.length ++ bytes))
  | nil : Writes .nil [106]
  | smallTuple {arity : Nat} (fits : arity < 2 ^ 8) :
      Writes (.tuple arity) (104 :: bigEndian 1 arity)
  | largeTuple {arity : Nat} (fits : arity < 2 ^ 32) :
      Writes (.tuple arity) (105 :: bigEndian 4 arity)
  | list {length : Nat} (fits : length < 2 ^ 32) :
      Writes (.list length) (108 :: bigEndian 4 length)
  | map {arity : Nat} (fits : arity < 2 ^ 32) :
      Writes (.map (2 * arity)) (116 :: bigEndian 4 arity)

/-- Tags one behind the other. -/
inductive WritesAll : List Tag → List UInt8 → Prop
  | nil : WritesAll [] []
  | cons {tag : Tag} {tags : List Tag} {b s : List UInt8} (head : tag.Writes b)
      (tail : WritesAll tags s) : WritesAll (tag :: tags) (b ++ s)

theorem Tag.Writes.ne_nil {tag : Tag} {b : List UInt8} (writes : tag.Writes b) : 0 < b.length := by
  cases writes <;> exact Nat.succ_pos _

theorem WritesAll.append {tags tags' : List Tag} {s s' : List UInt8} (h : WritesAll tags s)
    (h' : WritesAll tags' s') : WritesAll (tags ++ tags') (s ++ s') := by
  induction h with
  | nil => exact h'
  | cons head _ ih =>
    rw [List.append_assoc]
    exact .cons head ih

/-- What writes two streams is a part for each. -/
theorem WritesAll.split {tags tags' : List Tag} {s : List UInt8} (h : WritesAll (tags ++ tags') s) :
    ∃ first second, s = first ++ second ∧ WritesAll tags first ∧ WritesAll tags' second := by
  induction tags generalizing s with
  | nil => exact ⟨[], s, rfl, .nil, h⟩
  | cons tag tags ih =>
    cases h with
    | cons head tail =>
      obtain ⟨first, second, rfl, left, right⟩ := ih tail
      exact ⟨_, second, (List.append_assoc ..).symm, .cons head left, right⟩

/-- A tag takes a byte at least. -/
theorem WritesAll.length_le {tags : List Tag} {s : List UInt8} (h : WritesAll tags s) :
    tags.length ≤ s.length := by
  induction h with
  | nil => exact Nat.le_refl _
  | cons head _ ih =>
    have some_byte := head.ne_nil
    rw [List.length_cons, List.length_append]
    omega

/-! ## Reading a tag -/

/-- The sign and the digits of an integer. -/
def readBig (n : Nat) (s : List UInt8) : Option (Tag × List UInt8) :=
  (word 1 s).bind fun sign =>
    (cut n sign.2).map fun r => (.int (bigInt (sign.1 ≠ 0) r.1), r.2)

def AtomForm.read (form : AtomForm) (s : List UInt8) : Option (Tag × List UInt8) :=
  (word form.width s).bind fun len =>
    (cut len.1 len.2).bind fun r => (form.untext r.1).map fun name => (.atom name, r.2)

/-- A string of bytes behind its length. -/
def readSized (width : Nat) (s : List UInt8) : Option (List UInt8 × List UInt8) :=
  (word width s).bind fun len => cut len.1 len.2

/-- The first tag, and what is behind it. -/
def Tag.read : List UInt8 → Option (Tag × List UInt8)
  | 97 :: s => (word 1 s).map fun r => (.int r.1, r.2)
  | 98 :: s => (word 4 s).map fun r => (.int (signed r.1), r.2)
  | 110 :: s => (word 1 s).bind fun len => readBig len.1 len.2
  | 111 :: s => (word 4 s).bind fun len => readBig len.1 len.2
  | 70 :: s => (cut 8 s).map fun r => (.float r.1, r.2)
  | 100 :: s => AtomForm.latin1.read s
  | 115 :: s => AtomForm.smallLatin1.read s
  | 118 :: s => AtomForm.utf8.read s
  | 119 :: s => AtomForm.smallUtf8.read s
  | 109 :: s => (readSized 4 s).map fun r => (.binary r.1, r.2)
  | 107 :: s => (readSized 2 s).map fun r => (.string r.1, r.2)
  | 106 :: s => some (.nil, s)
  | 104 :: s => (word 1 s).map fun r => (.tuple r.1, r.2)
  | 105 :: s => (word 4 s).map fun r => (.tuple r.1, r.2)
  | 108 :: s => (word 4 s).map fun r => (.list r.1, r.2)
  | 116 :: s => (word 4 s).map fun r => (.map (2 * r.1), r.2)
  | _ => none

theorem readSized_append {width : Nat} {bytes : List UInt8} (fits : bytes.length < 256 ^ width)
    (rest : List UInt8) :
    readSized width (bigEndian width bytes.length ++ bytes ++ rest) = some (bytes, rest) := by
  rw [readSized, List.append_assoc, word_bigEndian fits, Option.bind_some, cut_append]

theorem readBig_append (negative : Bool) (digits rest : List UInt8) :
    readBig digits.length (signByte negative :: digits ++ rest) =
      some (.int (bigInt negative digits), rest) := by
  rw [readBig, List.cons_append, word_one, Option.bind_some, cut_append, Option.map_some]
  cases negative <;> rfl

/-- **What is written is read**, whatever is behind it. -/
theorem Tag.read_writes {tag : Tag} {b : List UInt8} (writes : tag.Writes b) (rest : List UInt8) :
    Tag.read (b ++ rest) = some (tag, rest) := by
  cases writes with
  | smallInteger b =>
    rw [List.cons_append, Tag.read, List.singleton_append, word_one]
    rfl
  | integer fits =>
    rw [List.cons_append, Tag.read, word_bigEndian fits]
    rfl
  | @smallBig digits negative fits =>
    rw [List.cons_append, Tag.read, List.append_assoc, word_bigEndian fits, Option.bind_some,
      readBig_append]
  | @largeBig digits negative fits =>
    rw [List.cons_append, Tag.read, List.append_assoc, word_bigEndian fits, Option.bind_some,
      readBig_append]
  | @newFloat bits eight =>
    show (cut 8 (bits ++ rest)).map _ = _
    rw [← eight, cut_append]
    rfl
  | @atom form name allows =>
    have text : form.read (bigEndian form.width (form.text name).length ++ form.text name ++ rest) =
        some (.atom name, rest) := by
      rw [AtomForm.read, List.append_assoc, word_bigEndian allows.fits, Option.bind_some,
        cut_append, Option.bind_some, AtomForm.untext_text allows]
      rfl
    cases form <;> exact text
  | @binary bytes fits =>
    show (readSized 4 (bigEndian 4 bytes.length ++ bytes ++ rest)).map _ = _
    rw [readSized_append fits]
    rfl
  | @string bytes fits =>
    show (readSized 2 (bigEndian 2 bytes.length ++ bytes ++ rest)).map _ = _
    rw [readSized_append fits]
    rfl
  | nil => rfl
  | smallTuple fits =>
    rw [List.cons_append, Tag.read, word_bigEndian fits]
    rfl
  | largeTuple fits =>
    rw [List.cons_append, Tag.read, word_bigEndian fits]
    rfl
  | list fits =>
    rw [List.cons_append, Tag.read, word_bigEndian fits]
    rfl
  | map fits =>
    rw [List.cons_append, Tag.read, word_bigEndian fits]
    rfl

/-! ## Terms -/

/-- What a term is. A list is made of cells, and the keys and the values of a map take turns. -/
inductive Term
  | int (value : Int)
  | float (bits : List UInt8)
  | atom (name : String)
  | binary (bytes : List UInt8)
  | nil
  | cons (head tail : Term)
  | tuple (elems : List Term)
  | map (keysAndValues : List Term)

mutual

/-- Equality, computed. -/
def Term.same : Term → Term → Bool
  | .int a, .int b => a = b
  | .float a, .float b => a = b
  | .atom a, .atom b => a = b
  | .binary a, .binary b => a = b
  | .nil, .nil => true
  | .cons a as, .cons b bs => a.same b && as.same bs
  | .tuple as, .tuple bs => sameAll as bs
  | .map as, .map bs => sameAll as bs
  | _, _ => false

def sameAll : List Term → List Term → Bool
  | [], [] => true
  | a :: as, b :: bs => a.same b && sameAll as bs
  | _, _ => false

end

/-- The cells of a list, with what is behind the last. -/
def Term.cells : List Term → Term → Term
  | [], tail => tail
  | t :: ts, tail => .cons t (cells ts tail)

/-- The keys of a map. -/
def keys : List Term → List Term
  | key :: _ :: rest => key :: keys rest
  | _ => []

/-- Put a tag in front of the terms behind it: a compound one takes its parts from them. A map
has each key once. -/
def Tag.push : Tag → List Term → Option (List Term)
  | .int value, ts => some (.int value :: ts)
  | .float bits, ts => some (.float bits :: ts)
  | .atom name, ts => some (.atom name :: ts)
  | .binary bytes, ts => some (.binary bytes :: ts)
  | .string bytes, ts => some (.cells (bytes.map fun b => .int b.toNat) .nil :: ts)
  | .nil, ts => some (.nil :: ts)
  | .tuple arity, ts =>
    if arity ≤ ts.length then some (.tuple (ts.take arity) :: ts.drop arity) else none
  | .list length, ts =>
    if length < ts.length then
      some (.cells (ts.take length) (ts.getD length .nil) :: ts.drop (length + 1))
    else none
  | .map size, ts =>
    if size ≤ ts.length ∧ (keys (ts.take size)).Pairwise (fun a b => a.same b = false) then
      some (.map (ts.take size) :: ts.drop size)
    else none
  | .other, _ => none

/-- A map takes its keys and values. -/
theorem Tag.push_map {ts : List Term} (distinct : (keys ts).Pairwise fun a b => a.same b = false)
    (us : List Term) : (Tag.map ts.length).push (ts ++ us) = some (.map ts :: us) := by
  rw [Tag.push, List.take_left, if_pos ⟨by simp, distinct⟩, List.drop_left]

/-- The terms in a stream of tags. -/
def ofTags (tags : List Tag) : Option (List Term) :=
  tags.foldr (fun tag ts => ts.bind tag.push) (some [])

/-- The tags in a stream of bytes, so many at most. -/
def readAll : Nat → List UInt8 → Option (List Tag)
  | _, [] => some []
  | 0, _ :: _ => none
  | fuel + 1, b :: s => (Tag.read (b :: s)).bind fun r => (readAll fuel r.2).map (r.1 :: ·)

/-- `binary_to_term`: the version, and one term. -/
def binaryToTerm : List UInt8 → Option Term
  | 131 :: s =>
    match (readAll s.length s).bind ofTags with
    | some [t] => some t
    | _ => none
  | _ => none

theorem readAll_writes {tags : List Tag} {s : List UInt8} (h : WritesAll tags s) {fuel : Nat}
    (enough : s.length ≤ fuel) : readAll fuel s = some tags := by
  induction h generalizing fuel with
  | nil => cases fuel <;> rfl
  | @cons tag tags b s head _ ih =>
    obtain ⟨first, b, rfl⟩ := List.exists_cons_of_length_pos head.ne_nil
    rw [List.cons_append, List.length_cons, List.length_append] at enough
    obtain ⟨fuel, rfl⟩ := Nat.exists_eq_add_of_le' (Nat.le_trans (Nat.le_add_left 1 _) enough)
    have front := Tag.read_writes head s
    rw [List.cons_append] at front ⊢
    rw [readAll, front, Option.bind_some, ih (by omega)]
    rfl

/-- A stream that is one term is read as that term, however its tags are written. -/
theorem binaryToTerm_writes {tags : List Tag} {s : List UInt8} {t : Term} (h : WritesAll tags s)
    (one : ofTags tags = some [t]) : binaryToTerm (131 :: s) = some t := by
  rw [binaryToTerm, readAll_writes h (Nat.le_refl _), Option.bind_some, one]

/-! ## Terms in bytes -/

/-- The bytes are these terms, one behind the other, whatever is behind them. -/
def Encodes (ts : List Term) (b : List UInt8) : Prop :=
  ∃ tags, WritesAll tags b ∧
    ∀ rest us, ofTags rest = some us → ofTags (tags ++ rest) = some (ts ++ us)

namespace Encodes

theorem nil : Encodes [] [] := ⟨[], .nil, fun _ _ h => h⟩

theorem append {ts us : List Term} {b c : List UInt8} (h : Encodes ts b) (k : Encodes us c) :
    Encodes (ts ++ us) (b ++ c) := by
  obtain ⟨tags, writes, reads⟩ := h
  obtain ⟨tags', writes', reads'⟩ := k
  refine ⟨tags ++ tags', writes.append writes', fun rest vs behind => ?_⟩
  rw [List.append_assoc, List.append_assoc]
  exact reads _ _ (reads' _ _ behind)

/-- A tag that is a term by itself. -/
theorem leaf {tag : Tag} {b : List UInt8} {t : Term} (writes : tag.Writes b)
    (alone : ∀ ts, tag.push ts = some (t :: ts)) : Encodes [t] b := by
  have one := WritesAll.cons writes .nil
  rw [List.append_nil] at one
  refine ⟨[tag], one, fun rest us behind => ?_⟩
  show (ofTags rest).bind tag.push = some (t :: us)
  rw [behind]
  exact alone us

/-- A tag that takes the terms behind it. -/
theorem compound {tag : Tag} {b c : List UInt8} {ts : List Term} {t : Term} (writes : tag.Writes b)
    (parts : Encodes ts c) (takes : ∀ us, tag.push (ts ++ us) = some (t :: us)) :
    Encodes [t] (b ++ c) := by
  obtain ⟨tags, writes', reads⟩ := parts
  refine ⟨tag :: tags, .cons writes writes', fun rest us behind => ?_⟩
  show (ofTags (tags ++ rest)).bind tag.push = some (t :: us)
  rw [reads rest us behind]
  exact takes us

theorem atom {name : String} {b : List UInt8} (writes : (Tag.atom name).Writes b) :
    Encodes [.atom name] b := leaf writes fun _ => rfl

theorem int {value : Int} {b : List UInt8} (writes : (Tag.int value).Writes b) :
    Encodes [.int value] b := leaf writes fun _ => rfl

theorem binary {bytes b : List UInt8} (writes : (Tag.binary bytes).Writes b) :
    Encodes [.binary bytes] b := leaf writes fun _ => rfl

theorem empty {b : List UInt8} (writes : Tag.nil.Writes b) : Encodes [.nil] b :=
  leaf writes fun _ => rfl

theorem tuple {ts : List Term} {b c : List UInt8} (writes : (Tag.tuple ts.length).Writes b)
    (parts : Encodes ts c) : Encodes [.tuple ts] (b ++ c) :=
  compound writes parts fun us => by
    rw [Tag.push, if_pos (by simp), List.take_left, List.drop_left]

/-- One cell of a list. -/
theorem cell {head tail : Term} {b c d : List UInt8} (writes : (Tag.list 1).Writes b)
    (first : Encodes [head] c) (rest : Encodes [tail] d) :
    Encodes [.cons head tail] (b ++ (c ++ d)) :=
  compound writes (first.append rest) fun us => by
    rw [Tag.push, if_pos (by simp)]
    rfl

theorem map {ts : List Term} {b c : List UInt8} (writes : (Tag.map ts.length).Writes b)
    (parts : Encodes ts c) (distinct : (keys ts).Pairwise fun a b => a.same b = false) :
    Encodes [.map ts] (b ++ c) :=
  compound writes parts (Tag.push_map distinct)

/-- The bytes of one term, behind the version, are that term. -/
theorem binaryToTerm {t : Term} {b : List UInt8} (h : Encodes [t] b) :
    Etf.binaryToTerm (131 :: b) = some t := by
  obtain ⟨tags, writes, reads⟩ := h
  have one := reads [] [] rfl
  rw [List.append_nil] at one
  exact binaryToTerm_writes writes one

end Encodes

end CircuitsUart.Lib.Etf
