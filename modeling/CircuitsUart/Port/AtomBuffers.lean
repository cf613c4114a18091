import CircuitsUart.Port.ParsedExactly

/-!
# Atoms in their buffers

`ei_decode_atom` is given a buffer and not its size: it stores the text of the atom and a NUL,
whatever that takes. Here every such store is written down, with the buffer it goes to, for
each request that the API can make.

The two buffers of `MAXATOMLEN` hold any atom. `key` holds 64 bytes, `parity` and
`flow_control` hold 16, and the options come from the user as they are. So everything fits
exactly if no option that is reached has a longer key, or a longer atom for one of these two.

The stores are a list that is computed beside the parser, turn by turn, up to the first turn that
does not return. What a store overwrites is not modelled: what lies behind `parity` on the stack is
not known, and the parser has nothing more to say after an overrun. `parse_overrun_iff` says that
the two agree on when that is.
-/

set_option autoImplicit false

namespace CircuitsUart

open Lib

namespace Port

/-! ## Buffers -/

/-- The memory that is decoded into. -/
inductive Buffer
  | cmd
  | dirstr
  | key
  | parity
  | flowControl
  | name
  deriving DecidableEq, Repr

def MAXATOMLEN : Nat := 255 + 1

def Buffer.size : Buffer → Nat
  | .cmd | .dirstr => MAXATOMLEN
  | .key | .name => 64
  | .parity | .flowControl => 16

/-- So many bytes were stored there. -/
structure Store where
  buffer : Buffer
  bytes : Nat
  deriving DecidableEq, Repr

def Store.Fits (s : Store) : Prop := s.bytes ≤ s.buffer.size

instance (s : Store) : Decidable s.Fits := inferInstanceAs (Decidable (_ ≤ _))

/-- How much `ei_decode_atom` stores: the text in Latin-1 and a NUL, or what comes before the
character that Latin-1 does not have. -/
def atomBytes : Etf.Tag → Nat
  | .atom name =>
    let latin1 := name.toList.takeWhile fun c => c.toNat ≤ 255
    if latin1 = name.toList then name.toList.length + 1 else latin1.length
  | _ => 0

/-- It overruns the buffer that is too small for that. -/
theorem eiDecodeAtom_overrun (size : Nat) (tag : Etf.Tag) :
    eiDecodeAtom size tag = .overrun ↔ size < atomBytes tag := by
  cases tag with
  | atom name =>
    unfold eiDecodeAtom atomBytes
    dsimp only
    split
    · split <;> simp_all
    · split <;> simp_all
  | _ => exact iff_of_false (by simp [eiDecodeAtom]) (Nat.not_lt_zero _)

/-- Text in characters is text in bytes, so an atom with its NUL takes no more than this. -/
theorem atomBytes_atom_le (name : String) : atomBytes (.atom name) ≤ name.toList.length + 1 := by
  unfold atomBytes
  dsimp only
  split
  · exact Nat.le_refl _
  · exact Nat.le_succ_of_le (List.takeWhile_prefix _).length_le

/-! ## The stores of `parse_option_list` -/

/-- The branch for a key decodes an atom if its value is one. -/
def Key.buffer : Key → Option Buffer
  | .parity => some .parity
  | .flowControl => some .flowControl
  | _ => none

/-- The atom that one turn of the loop decodes as a value. -/
def valueStores : Option Key → List Etf.Tag → List Store
  | some key, valueTag :: _ => (key.buffer.map fun buffer => ⟨buffer, atomBytes valueTag⟩).toList
  | _, _ => []

/-- One turn of the loop. -/
def turnStores : List Etf.Tag → List Store
  | .tuple 2 :: keyTag :: req =>
    ⟨.key, atomBytes keyTag⟩ ::
      match eiDecodeAtom 64 keyTag with
      | .ok key => valueStores (Key.find key) req
      | _ => []
  | _ => []

/-- The loop, which goes on behind a turn that returns. -/
def turnsStores : Nat → UartConfig → List Etf.Tag → List Store
  | 0, _, _ => []
  | optionCount + 1, config, req =>
    turnStores req ++
      match parseTurn config req with
      | .ok (config, req) => turnsStores optionCount config req
      | _ => []

/-- `parse_option_list`. -/
def optionListStores (config : UartConfig) : List Etf.Tag → List Store
  | .list optionCount :: req => turnsStores optionCount config req
  | _ => []

/-! ## The stores of a request -/

/-- A request of the API, as it reaches the C program. A keyword list is a list of pairs; a name is
a binary, or else a term that is none; and atoms have 255 characters at most. -/
inductive ApiRequest
  | «open» (name : Option (List UInt8)) (options : List Entry)
  | configure (options : List Entry)
  | flush (direction : ExtTerm)
      (short : ∀ name, direction = .atom name → name.toList.length ≤ 255)
  | write
  | read
  | drain
  | configuration
  | close
  | signals
  | setRts
  | setDtr
  | setBreak

/-- The command that `handle_elixir_request` decodes. -/
def ApiRequest.command : ApiRequest → String
  | .open _ _ => "open"
  | .configure _ => "configure"
  | .flush _ _ => "flush"
  | .write => "write"
  | .read => "read"
  | .drain => "drain"
  | .configuration => "configuration"
  | .close => "close"
  | .signals => "signals"
  | .setRts => "set_rts"
  | .setDtr => "set_dtr"
  | .setBreak => "set_break"

/-- The handler. `handle_open` stores a name that is shorter than its buffer, and a NUL behind
it. -/
def ApiRequest.handlerStores (config : UartConfig) : ApiRequest → List Store
  | .open none _ => []
  | .open (some name) options =>
    if 64 ≤ name.length then []
    else ⟨.name, name.length + 1⟩ :: optionListStores config (encodeEntries options).tags
  | .configure options => optionListStores config (encodeEntries options).tags
  | .flush direction _ => [⟨.dirstr, atomBytes direction.head⟩]
  | _ => []

/-- `handle_elixir_request`. -/
def ApiRequest.stores (config : UartConfig) (request : ApiRequest) : List Store :=
  ⟨.cmd, atomBytes (.atom request.command)⟩ :: request.handlerStores config

/-! ## When they fit -/

/-- The key of a pair, as `strcmp` finds it. -/
def keyOf (e : Entry) : Option Key :=
  match eiDecodeAtom 64 e.1.head with
  | .ok key => Key.find key
  | _ => none

/-- The atoms of a pair: a key that takes less than 64 characters, and less than 16 for a parity
or a flow control. -/
structure ShortAtoms (e : Entry) : Prop where
  key : atomBytes e.1.head ≤ 64
  value : keyOf e = some .parity ∨ keyOf e = some .flowControl → atomBytes e.2.head ≤ 16

/-- Every pair that is reached, which is to say that none before it is refused, has short atoms. -/
def ShortOptions (options : List Entry) : Prop :=
  ∀ before e after, options = before ++ e :: after → (∀ b ∈ before, reading b ≠ .failed) →
    ShortAtoms e

theorem shortOptions_nil : ShortOptions [] := fun before e after split => by simp at split

theorem shortOptions_cons (e : Entry) (es : List Entry) :
    ShortOptions (e :: es) ↔ ShortAtoms e ∧ (reading e ≠ .failed → ShortOptions es) := by
  constructor
  · intro short
    refine ⟨short [] e es rfl (by simp), fun goes before b after split all => ?_⟩
    exact short (e :: before) b after (by rw [split]; rfl) (List.forall_mem_cons.mpr ⟨goes, all⟩)
  · rintro ⟨here, rest⟩ (_ | ⟨b, before⟩) e' after split all
    · obtain ⟨rfl, -⟩ := List.cons.inj split
      exact here
    · obtain ⟨rfl, behind⟩ := List.cons.inj split
      obtain ⟨goes, all⟩ := List.forall_mem_cons.mp all
      exact rest goes before e' after behind all

/-- The value of a key with a buffer overruns it, and no other. -/
theorem decode_overrun (key : Key) (tag : Etf.Tag) :
    key.decode tag = .overrun ↔
      ∃ buffer, key.buffer = some buffer ∧ buffer.size < atomBytes tag := by
  have boolean : eiDecodeBoolean tag ≠ .overrun := by
    unfold eiDecodeBoolean
    split <;> simp
  have long : eiDecodeLong tag ≠ .overrun := by
    unfold eiDecodeLong
    split
    · split <;> simp
    · simp
  have map {α γ : Type} (f : α → γ) (v : Verdict α) : v.map f = .overrun ↔ v = .overrun := by
    cases v <;> simp [Verdict.map]
  cases key <;>
    simp [Key.decode, Key.buffer, Buffer.size, map, boolean, long, eiDecodeAtom_overrun]

theorem keyOf_of_ok {e : Entry} {key : String} (decoded : eiDecodeAtom 64 e.1.head = .ok key) :
    keyOf e = Key.find key := by
  unfold keyOf
  rw [decoded]

/-- The buffer that the value of a pair is decoded into, if it is decoded as an atom. -/
def valueBuffer (e : Entry) : Option Buffer := (keyOf e).bind Key.buffer

theorem shortAtoms_iff (e : Entry) : ShortAtoms e ↔ atomBytes e.1.head ≤ 64 ∧
    ∀ buffer, valueBuffer e = some buffer → atomBytes e.2.head ≤ buffer.size := by
  constructor
  · intro ⟨short, value⟩
    refine ⟨short, fun buffer decodes => ?_⟩
    obtain ⟨key, found, has⟩ := Option.bind_eq_some_iff.mp decodes
    cases key with
    | parity =>
      obtain rfl := Option.some.inj has
      exact value (.inl found)
    | flowControl =>
      obtain rfl := Option.some.inj has
      exact value (.inr found)
    | _ => exact absurd has (by simp [Key.buffer])
  · intro ⟨short, values⟩
    refine ⟨short, ?_⟩
    rintro (parity | flowControl)
    · exact values .parity (by simp [valueBuffer, parity, Key.buffer])
    · exact values .flowControl (by simp [valueBuffer, flowControl, Key.buffer])

/-- **A pair overruns a buffer exactly if its atoms are not short.** -/
theorem reading_overrun (e : Entry) : reading e = .overrun ↔ ¬ ShortAtoms e := by
  have overruns := eiDecodeAtom_overrun 64 e.1.head
  rw [shortAtoms_iff, valueBuffer]
  unfold reading
  cases decoded : eiDecodeAtom 64 e.1.head with
  | overrun => exact iff_of_true rfl fun short => absurd (overruns.mp decoded) (by omega)
  | failed =>
    have unfound : keyOf e = none := by
      unfold keyOf
      rw [decoded]
    have short := mt overruns.mpr (by simp [decoded])
    rw [unfound]
    simpa [Verdict.bind] using short
  | ok key =>
    have short := mt overruns.mpr (by simp [decoded])
    rw [keyOf_of_ok decoded, and_iff_right (Nat.le_of_not_lt short)]
    simp only [Verdict.bind]
    cases Key.find key with
    | none => simp
    | some key =>
      dsimp only
      rw [decode_overrun]
      simp

/-! ## One option after another -/

theorem turnStores_entry (e : Entry) (rest : List Etf.Tag) :
    turnStores (e.term.tags ++ rest) = ⟨.key, atomBytes e.1.head⟩ ::
      ((valueBuffer e).map fun buffer => ⟨buffer, atomBytes e.2.head⟩).toList := by
  obtain ⟨key, value⟩ := e
  obtain ⟨inKey, hkey⟩ := exists_tags key
  obtain ⟨inValue, hvalue⟩ := exists_tags value
  have pair : (Entry.term (key, value)).tags ++ rest =
      .tuple 2 :: key.head :: (inKey ++ (value.tags ++ rest)) := by
    simp [Entry.term, ExtTerm.tags, tagsAll, hkey]
  rw [pair]
  show (⟨.key, atomBytes key.head⟩ : Store) ::
    (match eiDecodeAtom 64 key.head with
      | .ok name => valueStores (Key.find name) (inKey ++ (value.tags ++ rest))
      | _ => []) = _
  unfold valueBuffer keyOf
  dsimp only
  cases decoded : eiDecodeAtom 64 key.head with
  | overrun => rfl
  | failed => rfl
  | ok name =>
    have alone := tags_of_atom decoded
    rw [hkey] at alone
    obtain rfl := (List.cons.inj alone).2
    dsimp only
    rw [hvalue]
    cases Key.find name <;> rfl

theorem turn_fits (e : Entry) (rest : List Etf.Tag) :
    (∀ s ∈ turnStores (e.term.tags ++ rest), s.Fits) ↔ ShortAtoms e := by
  rw [turnStores_entry, List.forall_mem_cons, shortAtoms_iff]
  refine and_congr Iff.rfl ?_
  cases valueBuffer e with
  | none => simp
  | some buffer => simp [Store.Fits]

/-- **The loop keeps to its buffers** exactly if the options it reaches are short. -/
theorem turns_fit (config : UartConfig) (entries : List Entry) (rest : List Etf.Tag) :
    (∀ s ∈ turnsStores entries.length config (tagsAll (entries.map Entry.term) ++ rest), s.Fits) ↔
      ShortOptions entries := by
  induction entries generalizing config with
  | nil => exact iff_of_true (by simp [turnsStores]) shortOptions_nil
  | cons e es ih =>
    have stream : tagsAll ((e :: es).map Entry.term) ++ rest =
        e.term.tags ++ (tagsAll (es.map Entry.term) ++ rest) := by
      rw [List.map_cons, tagsAll, List.append_assoc]
    rw [shortOptions_cons, stream, List.length_cons, turnsStores, parseTurn_entry,
      List.forall_mem_append, turn_fits]
    refine and_congr_right fun short => ?_
    have fits := mt (reading_overrun e).mp (not_not.mpr short)
    cases reads : reading e with
    | overrun => exact absurd reads fits
    | failed => simp [Verdict.map]
    | ok setting => simpa [Verdict.map] using ih (assign config setting)

theorem optionList_fits (config : UartConfig) (entries : List Entry) :
    (∀ s ∈ optionListStores config (encodeEntries entries).tags, s.Fits) ↔
      ShortOptions entries := by
  cases entries with
  | nil =>
    exact iff_of_true (by simp [optionListStores, encodeEntries, ExtTerm.tags]) shortOptions_nil
  | cons e es =>
    have stream : (encodeEntries (e :: es)).tags =
        .list (e :: es).length :: (tagsAll ((e :: es).map Entry.term) ++ [.nil]) := by
      simp [encodeEntries, ExtTerm.tags]
    rw [stream]
    exact turns_fit config (e :: es) [.nil]

/-! ## Every request -/

/-- The options of a request that are parsed. -/
def ApiRequest.parsed : ApiRequest → List Entry
  | .open (some name) options => if 64 ≤ name.length then [] else options
  | .configure options => options
  | _ => []

theorem command_fits (request : ApiRequest) :
    (⟨.cmd, atomBytes (.atom request.command)⟩ : Store).Fits := by
  refine (atomBytes_atom_le _).trans ?_
  unfold ApiRequest.command
  cases request <;> (dsimp only; decide)

/-- **Every atom fits its buffer, and the name its own**, exactly if the options that the request
reaches are short. -/
theorem stores_fit_iff (config : UartConfig) (request : ApiRequest) :
    (∀ s ∈ request.stores config, s.Fits) ↔ ShortOptions request.parsed := by
  unfold ApiRequest.stores
  rw [List.forall_mem_cons, and_iff_right (command_fits request)]
  cases request with
  | «open» name options =>
    cases name with
    | none => exact iff_of_true (by simp [ApiRequest.handlerStores]) shortOptions_nil
    | some name =>
      unfold ApiRequest.handlerStores ApiRequest.parsed
      dsimp only
      split
      · exact iff_of_true (by simp) shortOptions_nil
      · next fits =>
        rw [List.forall_mem_cons, optionList_fits]
        exact and_iff_right (show name.length + 1 ≤ 64 by omega)
  | configure options => exact optionList_fits config options
  | flush direction short =>
    refine iff_of_true ?_ shortOptions_nil
    intro s inside
    obtain rfl := List.mem_singleton.mp inside
    show atomBytes direction.head ≤ 256
    cases direction with
    | atom name => exact (atomBytes_atom_le name).trans (Nat.succ_le_succ (short name rfl))
    | _ => exact Nat.zero_le _
  | _ => exact iff_of_true (by simp [ApiRequest.handlerStores]) shortOptions_nil

theorem settle_overrun (entries : List Entry) :
    settle entries = .overrun ↔ ¬ ShortOptions entries := by
  induction entries with
  | nil => exact iff_of_false (by simp [settle]) (not_not.mpr shortOptions_nil)
  | cons e es ih =>
    rw [shortOptions_cons, settle]
    cases reads : reading e with
    | overrun => exact iff_of_true rfl fun short => (reading_overrun e).mp reads short.1
    | failed =>
      have short := not_not.mp (mt (reading_overrun e).mpr (by simp [reads]))
      simp [Verdict.bind, short]
    | ok setting =>
      have short := not_not.mp (mt (reading_overrun e).mpr (by simp [reads]))
      rw [and_iff_right short, imp_iff_right (by simp), ← ih]
      cases settle es <;> simp [Verdict.bind, Verdict.map]

/-- The parser overruns a buffer exactly where a store does not fit. -/
theorem parse_overrun_iff (config : UartConfig) (entries : List Entry) :
    parseOptionListAt config (encodeEntries entries).tags = .overrun ↔
      ¬ ∀ s ∈ optionListStores config (encodeEntries entries).tags, s.Fits := by
  have parses := parseOptionListAt_entries config entries []
  rw [List.append_nil] at parses
  rw [optionList_fits, ← settle_overrun, parses]
  cases settle entries <;> simp [Verdict.map]

/-- An atom of sixteen characters for the parity leaves its NUL behind the buffer. -/
theorem not_stores_fit_parity :
    ¬ ∀ s ∈ (ApiRequest.open (some (ascii "ttyS0"))
      [(.atom "speed", .int 9600), (.atom "parity", .atom "even_or_else_odd")]).stores
        uartDefaultConfig, s.Fits := by
  decide

end Port

end CircuitsUart
