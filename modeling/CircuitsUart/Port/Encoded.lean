import CircuitsUart.Port.EiSkip

/-!
# The handlers on a request in memory

`handle_elixir_request` and the handlers it calls, on the bytes that `erlcmd_try_dispatch` finds in
the buffer. Nothing is said of a run that reads or writes outside of the memory it was given
(`none`); any other run goes on as the handlers of `Program` do on a command.

The handlers appear twice in this development, there on commands and here on bytes, and it is this
module that makes the first account true of the program. Each handler here decodes its arguments
and calls the rest of itself from there; where the decoding fails it answers or stops as the
source does. So a theorem on commands holds of a request in memory as soon as the decoders return
what was meant, and `handleElixirRequest_written` is that theorem for every command, in whatever
form its tags are written.

An option list is more than a command's: a client may pass anything. `options_in_memory` is about
any list of pairs, those that are refused and those that overrun a buffer included.
-/

set_option autoImplicit false

namespace CircuitsUart

open Lib Port

namespace Encoded

/-! ## `parse_option_list` -/

/-- The branch for a key, with the cursor behind the value. -/
def decodeValue : Key → List UInt8 → Verdict (Option Setting × List UInt8)
  | .active, req => (Ei.decodeBoolean req).map fun val => (some (.active val.1), val.2)
  | .speed, req => (Ei.decodeLong req).map fun val => (some (.speed (toInt val.1)), val.2)
  | .dataBits, req => (Ei.decodeLong req).map fun val => (some (.dataBits (toInt val.1)), val.2)
  | .stopBits, req => (Ei.decodeLong req).map fun val => (some (.stopBits (toInt val.1)), val.2)
  | .parity, req =>
    (Ei.decodeAtom 16 req).map fun parity => ((decodeParity parity.1).map .parity, parity.2)
  | .flowControl, req =>
    (Ei.decodeAtom 16 req).map fun flowControl =>
      ((decodeFlowControl flowControl.1).map .flowControl, flowControl.2)
  | .rs485Enabled, req =>
    (Ei.decodeBoolean req).map fun val => (some (.rs485Enabled (ofBool val.1)), val.2)
  | .rs485RtsOnSend, req =>
    (Ei.decodeBoolean req).map fun val => (some (.rs485RtsOnSend (ofBool val.1)), val.2)
  | .rs485RtsAfterSend, req =>
    (Ei.decodeBoolean req).map fun val => (some (.rs485RtsAfterSend (ofBool val.1)), val.2)
  | .rs485RxDuringTx, req =>
    (Ei.decodeBoolean req).map fun val => (some (.rs485RxDuringTx (ofBool val.1)), val.2)
  | .rs485TerminateBus, req =>
    (Ei.decodeBoolean req).map fun val => (some (.rs485TerminateBus (ofBool val.1)), val.2)
  | .rs485DelayRtsBeforeSend, req =>
    (Ei.decodeLong req).map fun val => (some (.rs485DelayRtsBeforeSend val.1), val.2)
  | .rs485DelayRtsAfterSend, req =>
    (Ei.decodeLong req).map fun val => (some (.rs485DelayRtsAfterSend val.1), val.2)

/-- One turn of the loop. -/
def parseTurn (config : UartConfig) (req : List UInt8) : Verdict (UartConfig × List UInt8) :=
  (Ei.decodeTupleHeader req).bind fun termSize =>
    if termSize.1 ≠ 2 then .failed
    else
      (Ei.decodeAtom 64 termSize.2).bind fun key =>
        match Key.find key.1 with
        -- what `ei_skip_term` returns is not looked at
        | none => (Ei.skipTerm key.2).map fun skipped => (config, skipped.2)
        | some known => (decodeValue known key.2).map fun val => (assign config val.1, val.2)

/-- The loop over the options. -/
def parseTurns : Nat → UartConfig → List UInt8 → Verdict (UartConfig × List UInt8)
  | 0, config, req => .ok (config, req)
  | optionCount + 1, config, req =>
    (parseTurn config req).bind fun turn => parseTurns optionCount turn.1 turn.2

/-- `parse_option_list`. -/
def parseOptionList (config : UartConfig) (req : List UInt8) : Verdict (UartConfig × List UInt8) :=
  (Ei.getType req).bind fun term =>
    if term.1 ≠ 108 ∧ term.1 ≠ 106 then .failed
    else if term.1 = 106 then parseTurns 0 config req
    else (Ei.decodeListHeader req).bind fun optionCount =>
      parseTurns optionCount.1.toNat config optionCount.2

/-! ## The request handlers -/

section

variable {β : Type}

/-- Why there is no next state, or the next state; or nothing is said. -/
abbrev Run (β : Type) := Option (Except Stop (Program β))

/-- Go on with what a decoder returns, or with its -1. -/
def following {α : Type} (decoded : Verdict α) (failed : Except Stop (Program β))
    (go : α → Run β) : Run β :=
  match decoded with
  | .ok a => go a
  | .failed => some failed
  | .overrun => none

/-- `handle_open`. -/
def handleOpen (os : Os β) (req : List UInt8) (p : Program β) : Run β :=
  let notPair := .error (.errx ":open requires a 2-tuple")
  following (Ei.decodeTupleHeader req) notPair fun termSize =>
    if termSize.1 ≠ 2 then some notPair
    else
      let noName := .ok (p.sendErrorResponse .enoent)
      following (Ei.getType termSize.2) noName fun term =>
        if term.1 ≠ 109 ∨ 64 ≤ term.2 then some noName
        else
          following (Ei.decodeBinary termSize.2) noName fun name =>
            following (parseOptionList p.currentConfig name.2)
              (.ok (p.sendErrorResponse .einval)) fun parsed =>
                let p := if p.uartIsOpen then p.uartClose else p
                some <| .ok <|
                  match p.uartOpen os (Program.cString name.1) parsed.1 with
                  | (true, p) => (p.adopt os parsed.1).sendOkResponse
                  | (false, p) => p.sendErrorResponse p.lastError

/-- `handle_configure`. -/
def handleConfigure (os : Os β) (req : List UInt8) (p : Program β) : Run β :=
  following (parseOptionList p.currentConfig req) (.ok (p.sendErrorResponse .einval)) fun parsed =>
    some do
      match ← p.uartConfigure os parsed.1 with
      | (true, p) => return (p.adopt os parsed.1).sendOkResponse
      | (false, p) => return p.sendErrorResponse p.lastError

/-- `handle_write`. -/
def handleWrite (os : Os β) (req : List UInt8) (p : Program β) : Run β :=
  if p.uartIsOpen then
    let notPair := .error (.errx "expecting \x7bdata, timeout\x7d")
    following (Ei.decodeTupleHeader req) notPair fun termSize =>
      if termSize.1 ≠ 2 then some notPair
      else
        let notBinary := .error (.errx "expecting data as a binary")
        following (Ei.getType termSize.2) notBinary fun term =>
          if term.1 ≠ 109 then some notBinary
          else
            following (Ei.decodeBinary termSize.2) (.error (.errx "decode binary error?"))
              fun data =>
                following (Ei.decodeLong data.2) (.error (.errx "expecting timeout")) fun timeout =>
                  some (p.uartWrite os data.1 (toInt timeout.1))
  else some (.ok (p.sendErrorResponse .ebadf))

/-- `handle_read`. -/
def handleRead (os : Os β) (req : List UInt8) (p : Program β) : Run β :=
  if p.uartIsOpen then
    following (Ei.decodeLong req) (.error (.errx "expecting timeout")) fun timeout =>
      some (p.uartRead os (toInt timeout.1))
  else some (.ok (p.sendErrorResponse .ebadf))

/-- The `strcmp` of a direction with each of the names. -/
def findDirection : String → Option Direction
  | "receive" => some .receive
  | "transmit" => some .transmit
  | "both" => some .both
  | _ => none

/-- `handle_flush`. -/
def handleFlush (os : Os β) (req : List UInt8) (p : Program β) : Run β :=
  following (Ei.decodeAtom MAXATOMLEN req) (.ok (p.sendErrorResponse .einval)) fun dirstr =>
    match findDirection dirstr.1 with
    | none => some (.ok (p.sendErrorResponse .einval))
    | some direction => some (p.handleFlush os direction)

/-- `handle_set_rts`, `handle_set_dtr` and `handle_set_break`, given the rest of the handler. -/
def handleSet (set : Bool → Program β → Except Stop (Program β)) (req : List UInt8)
    (p : Program β) : Run β :=
  following (Ei.decodeBoolean req) (.ok (p.sendErrorResponse .einval)) fun val =>
    some (set val.1 p)

/-- `handle_set_rts`. -/
def handleSetRts (os : Os β) : List UInt8 → Program β → Run β :=
  handleSet fun val p => p.handleSetRts os val

/-- `handle_set_dtr`. -/
def handleSetDtr (os : Os β) : List UInt8 → Program β → Run β :=
  handleSet fun val p => p.handleSetDtr os val

/-- `handle_set_break`. -/
def handleSetBreak (os : Os β) : List UInt8 → Program β → Run β :=
  handleSet fun val p => p.handleSetBreak os val

/-- The handlers that do not look at their request. -/
def ignoring (handler : Program β → Except Stop (Program β)) (_req : List UInt8)
    (p : Program β) : Run β := some (handler p)

/-- `request_handlers`. -/
def requestHandlers (os : Os β) : List (String × (List UInt8 → Program β → Run β)) := [
  ("write", handleWrite os),
  ("read", handleRead os),
  ("flush", handleFlush os),
  ("drain", ignoring fun p => p.handleDrain os),
  ("open", handleOpen os),
  ("configure", handleConfigure os),
  ("configuration", ignoring fun p => .ok p.handleConfiguration),
  ("close", ignoring fun p => .ok p.handleClose),
  ("signals", ignoring fun p => p.handleSignals os),
  ("set_rts", handleSetRts os),
  ("set_dtr", handleSetDtr os),
  ("set_break", handleSetBreak os)]

/-- `handle_elixir_request`, on the buffer with its two bytes of length. -/
def handleElixirRequest (os : Os β) (req : List UInt8) (p : Program β) : Run β :=
  following (Ei.decodeVersion (req.drop 2)) (.error (.errx "Message version issue?")) fun req =>
    let notPair := .error (.errx "expecting \x7bcmd, args\x7d tuple")
    following (Ei.decodeTupleHeader req) notPair fun arity =>
      if arity.1 ≠ 2 then some notPair
      else
        following (Ei.decodeAtom MAXATOMLEN arity.2) (.error (.errx "expecting command atom"))
          fun cmd =>
            match (requestHandlers os).find? fun rh => cmd.1 = rh.1 with
            | some rh => rh.2 cmd.2 p
            | none => some (.error (.errx ("unknown command: " ++ cmd.1)))

end

/-! ## One option -/

theorem decodeValue_writes {t : Etf.Tag} {b : List UInt8} (writes : t.Writes b)
    (short : b.length < 2 ^ 31) (key : Key) (rest : List UInt8) :
    decodeValue key (b ++ rest) =
      (key.decode t).map fun setting => (setting, rest) := by
  have boolean := Ei.decodeBoolean_writes writes rest
  have long := Ei.decodeLong_writes writes short rest
  have atom := Ei.decodeAtom_writes writes 16 rest
  cases key with
  | parity =>
    rw [decodeValue, Key.decode, atom]
    cases eiDecodeAtom 16 t <;> rfl
  | flowControl =>
    rw [decodeValue, Key.decode, atom]
    cases eiDecodeAtom 16 t <;> rfl
  | speed | dataBits | stopBits | rs485DelayRtsBeforeSend | rs485DelayRtsAfterSend =>
    rw [decodeValue, Key.decode, long]
    cases eiDecodeLong t <;> rfl
  | _ =>
    rw [decodeValue, Key.decode, boolean]
    cases eiDecodeBoolean t <;> rfl

/-- The first tag of a term is in front; if the term is no more than that, its bytes are all. -/
theorem exists_first {e : ExtTerm} {b : List UInt8} (written : Ei.Written e.tags b) :
    ∃ b₁ b₂, b = b₁ ++ b₂ ∧ e.head.Writes b₁ ∧ b₁.length < 2 ^ 31 ∧
      (e.tags = [e.head] → b₂ = []) := by
  obtain ⟨inside, whole⟩ := exists_tags e
  rw [whole] at written ⊢
  obtain ⟨b₁, b₂, rfl, writes, short, rest⟩ := written.cons
  refine ⟨b₁, b₂, rfl, writes, short, fun alone => ?_⟩
  rw [(List.cons.inj alone).2] at rest
  exact rest.eq_nil

/-- **One turn takes one pair in memory** as it takes its tags. -/
theorem parseTurn_written (config : UartConfig) (e : Entry) {b : List UInt8}
    (written : Ei.Written e.term.tags b) (rest : List UInt8) :
    parseTurn config (b ++ rest) =
      (reading e).map fun setting => (assign config setting, rest) := by
  obtain ⟨key, value⟩ := e
  have pair : (Entry.term (key, value)).tags = .tuple 2 :: (key.tags ++ value.tags) := by
    simp [Entry.term, ExtTerm.tags, tagsAll]
  rw [pair] at written
  obtain ⟨b₁, b₂, rfl, header, -, inside⟩ := written.cons
  obtain ⟨bKey, bValue, rfl, inKey, inValue⟩ := inside.append
  obtain ⟨k₁, k₂, rfl, writesKey, -, keyAlone⟩ := exists_first inKey
  obtain ⟨v₁, v₂, rfl, writesValue, short, valueAlone⟩ := exists_first inValue
  unfold parseTurn reading
  rw [List.append_assoc, Ei.decodeTupleHeader_writes header (by decide), Verdict.bind,
    if_neg (by simp), List.append_assoc, List.append_assoc, Ei.decodeAtom_writes writesKey]
  cases decoded : eiDecodeAtom 64 key.head with
  | failed => rfl
  | overrun => rfl
  | ok name =>
    rw [keyAlone (tags_of_atom decoded), List.nil_append]
    simp only [Verdict.map, Verdict.bind]
    cases Key.find name with
    | none =>
      dsimp only
      rw [Ei.skipTerm_written inValue]
      rfl
    | some known =>
      dsimp only
      rw [List.append_assoc, decodeValue_writes writesValue short]
      cases branch : known.decode value.head with
      | failed => rfl
      | overrun => rfl
      | ok setting =>
        rw [valueAlone (tags_of_decode branch)]
        rfl

/-! ## The option list -/

theorem parseTurns_written (config : UartConfig) (entries : List Entry) {b : List UInt8}
    (written : Ei.Written (tagsAll (entries.map Entry.term)) b) (rest : List UInt8) :
    parseTurns entries.length config (b ++ rest) =
      (settle entries).map fun settings => (optionFields.writes settings config, rest) := by
  induction entries generalizing config b with
  | nil =>
    rw [List.map_nil, tagsAll] at written
    rw [written.eq_nil]
    rfl
  | cons e es ih =>
    rw [List.map_cons, tagsAll] at written
    obtain ⟨b₁, b₂, rfl, head, tail⟩ := written.append
    rw [List.length_cons, parseTurns, List.append_assoc, parseTurn_written config e head, settle]
    cases reading e with
    | failed => rfl
    | overrun => rfl
    | ok setting =>
      simp only [Verdict.map, Verdict.bind]
      rw [ih (assign config setting) tail]
      cases settle es with
      | failed => rfl
      | overrun => rfl
      | ok settings =>
        have order := writes_assign config setting settings
        exact congrArg (fun config' => Verdict.ok (config', rest)) order.symm

/-- **An option list in memory is parsed as its tags are**, with any terms in it. -/
theorem parseOptionList_written (config : UartConfig) (entries : List Entry) {b : List UInt8}
    (written : Ei.Written (encodeEntries entries).tags b) (rest : List UInt8) :
    (parseOptionList config (b ++ rest)).map Prod.fst =
      (parseOptionListAt config (encodeEntries entries).tags).map Prod.fst := by
  have tags := parseOptionListAt_entries config entries []
  rw [List.append_nil] at tags
  rw [tags]
  cases entries with
  | nil =>
    cases written.alone
    rfl
  | cons e es =>
    have stream : (encodeEntries (e :: es)).tags =
        .list (e :: es).length :: (tagsAll ((e :: es).map Entry.term) ++ [.nil]) := by
      simp [encodeEntries, ExtTerm.tags]
    rw [stream] at written
    obtain ⟨b₁, b₂, rfl, header, -, inside⟩ := written.cons
    obtain ⟨b₃, b₄, rfl, pairs, -⟩ := inside.append
    have counted := Ei.length_le_tagsAll ((e :: es).map Entry.term)
    rw [List.length_map] at counted
    have small := counted.trans_lt (pairs.length_le.trans_lt pairs.short)
    obtain ⟨decoded, type⟩ :=
      Ei.decodeListHeader_writes header small (b₃ ++ b₄ ++ rest)
    rw [parseOptionList, List.append_assoc, type, Verdict.bind, if_neg (by simp),
      if_neg (by simp), decoded, Verdict.bind, Int.toNat_natCast, List.append_assoc,
      parseTurns_written config (e :: es) pairs]
    cases settle (e :: es) <;> rfl

theorem map_eq_failed {α γ : Type} (f : α → γ) {v : Verdict α} :
    v.map f = .failed ↔ v = .failed := by
  cases v <;> simp [Verdict.map]

theorem map_eq_overrun {α γ : Type} (f : α → γ) {v : Verdict α} :
    v.map f = .overrun ↔ v = .overrun := by
  cases v <;> simp [Verdict.map]

theorem map_eq_ok {α γ : Type} {f : α → γ} {v : Verdict α} {c : γ} :
    v.map f = .ok c ↔ ∃ a, v = .ok a ∧ f a = c := by
  cases v <;> simp [Verdict.map]

/-- **What an option list in memory does.** Its pairs may hold integers, floats, atoms, binaries,
strings, lists, tuples and maps, in any of the forms that `Tag.Writes` has, one inside the other
(`Ei.Written`); pids, ports, references, functions, exports, bitstrings and floats in the old format
are not among them, some of which `ei_skip_term` stops at. `parse_option_list` refuses it if and
only if the first pair that cannot be taken is refused; it accepts it if and only if every pair can
be taken, and the configuration is then that of before with what the pairs are taken for, in their
order; and it writes past a buffer if and only if one of the atoms that it decodes does not fit
where it goes. -/
theorem options_in_memory (config config' : UartConfig) (entries : List Entry) {b : List UInt8}
    (written : Ei.Written (encodeEntries entries).tags b) (rest : List UInt8) :
    (parseOptionList config (b ++ rest) = .failed ↔ FirstRefused entries) ∧
      ((∃ left, parseOptionList config (b ++ rest) = .ok (config', left)) ↔
        (∀ e ∈ entries, Taken e) ∧
          optionFields.writes (entries.filterMap taken) config = config') ∧
      (parseOptionList config (b ++ rest) = .overrun ↔
        ¬ ∀ s ∈ optionListStores config (encodeEntries entries).tags, s.Fits) := by
  have parsed := parseOptionList_written config entries written rest
  have same : (parseOptionList config (b ++ rest)).map Prod.fst =
      (settle entries).map fun settings => optionFields.writes settings config := by
    have tags := parseOptionListAt_entries config entries []
    rw [List.append_nil] at tags
    rw [parsed, tags]
    cases settle entries <;> rfl
  refine ⟨?_, ?_, ?_⟩
  · rw [← settle_eq_failed, ← map_eq_failed Prod.fst, same, map_eq_failed]
  · constructor
    · rintro ⟨left, accepted⟩
      rw [accepted] at same
      obtain ⟨settings, settles, rfl⟩ := map_eq_ok.mp same.symm
      obtain ⟨all, rfl⟩ := settle_eq_ok.mp settles
      exact ⟨all, rfl⟩
    · rintro ⟨all, rfl⟩
      rw [settle_of_taken all] at same
      obtain ⟨⟨config', left⟩, accepted, rfl⟩ := map_eq_ok.mp same
      exact ⟨left, accepted⟩
  · rw [← parse_overrun_iff, ← map_eq_overrun Prod.fst, parsed, map_eq_overrun]

/-- Between two options is one that nobody knows, with a map, a float and a list that ends in an
atom inside. -/
theorem options_in_memory_unknown :
    ∃ (b left : List UInt8), parseOptionList uartDefaultConfig b =
      .ok ({ uartDefaultConfig with speed := 115200, active := false }, left) := by
  let entries : List Entry := [(.atom "speed", .int 115200),
    (.atom "bogus", .tuple [.map [.nil, .float (List.replicate 8 0)], .list [.int 1] (.atom "b")]),
    (.atom "active", .atom "false")]
  have allows {name : String} (short : name.toList.length ≤ 255)
      (fits : (Etf.AtomForm.smallUtf8.text name).length < 256) :
      Etf.AtomForm.smallUtf8.Allows name := ⟨short, by simp [Etf.AtomForm.isLatin1], fits⟩
  have all : Etf.WritesAll [.list 3, .tuple 2, .atom "speed", .int (Etf.signed 115200), .tuple 2,
      .atom "bogus", .tuple 2, .map (2 * 1), .nil, .float (List.replicate 8 0), .list 1,
      .int (1 : UInt8).toNat, .atom "b", .tuple 2, .atom "active", .atom "false", .nil] _ :=
    .cons (.list (by decide)) <| .cons (.smallTuple (by decide)) <|
      .cons (.atom (allows (by decide) (by decide))) <| .cons (.integer (by decide)) <|
      .cons (.largeTuple (by decide)) <| .cons (.atom (allows (by decide) (by decide))) <|
      .cons (.smallTuple (by decide)) <| .cons (.map (by decide)) <| .cons .nil <|
      .cons (.newFloat rfl) <| .cons (.list (by decide)) <| .cons (.smallInteger 1) <|
      .cons (.atom (allows (by decide) (by decide))) <| .cons (.smallTuple (by decide)) <|
      .cons (.atom (allows (by decide) (by decide))) <|
      .cons (.atom (allows (by decide) (by decide))) <| .cons .nil .nil
  have written : Ei.Written (encodeEntries entries).tags _ := ⟨by decide, all⟩
  have taken : ∀ e ∈ entries, Taken e := by
    intro e inside
    simp only [entries, List.mem_cons, List.not_mem_nil, or_false] at inside
    rcases inside with rfl | rfl | rfl <;> exact ⟨_, rfl⟩
  obtain ⟨left, accepted⟩ := (options_in_memory uartDefaultConfig
    { uartDefaultConfig with speed := 115200, active := false } entries written []).2.1.mpr
      ⟨taken, rfl⟩
  exact ⟨_, left, accepted⟩

/-! ## Commands -/

/-- The tags of an option list of the API. -/
def optionsTags (opts : List UartOption) : List Etf.Tag :=
  (encodeEntries (opts.map optionEntry)).tags

/-- The atom of a direction. -/
def directionAtom : Direction → String
  | .receive => "receive"
  | .transmit => "transmit"
  | .both => "both"

def booleanAtom (v : Bool) : String := if v then "true" else "false"

end Encoded

open Encoded

/-- The request that a command makes. -/
def Command.request : Command → ApiRequest
  | .open name opts => .open name (opts.map optionEntry)
  | .configure opts => .configure (opts.map optionEntry)
  | .configuration => .configuration
  | .close => .close
  | .write _ _ => .write
  | .read _ => .read
  | .drain => .drain
  | .flush direction => .flush (.atom (directionAtom direction)) fun name same => by
      cases same
      cases direction <;> decide
  | .signals => .signals
  | .setDtr _ => .setDtr
  | .setRts _ => .setRts
  | .setBreak _ => .setBreak

/-- The command in a request. -/
def Command.name (command : Command) : String := command.request.command

/-- Its arguments, as `call_port/4` gives them. -/
def Command.arguments : Command → List Etf.Tag
  | .open name opts => .tuple 2 :: .binary name :: optionsTags opts
  | .configure opts => optionsTags opts
  | .configuration => [.tuple 0]
  | .close | .drain | .signals => [.atom "nil"]
  | .write data timeout => [.tuple 2, .binary data, .int timeout]
  | .read timeout => [.int timeout]
  | .flush direction => [.atom (directionAtom direction)]
  | .setDtr value | .setRts value | .setBreak value => [.atom (booleanAtom value)]

/-- `{command, arguments}`. -/
def Command.tags (command : Command) : List Etf.Tag :=
  .tuple 2 :: .atom command.name :: command.arguments

namespace Encoded

/-! ## Every request -/

section

variable {β : Type}

theorem following_map {α γ : Type} (decoded : Verdict α) (f : α → γ)
    (failed : Except Stop (Program β)) (go : γ → Run β) :
    following decoded failed (fun a => go (f a)) = following (decoded.map f) failed go := by
  cases decoded <;> rfl

theorem following_ok {α : Type} (a : α) (failed : Except Stop (Program β)) (go : α → Run β) :
    following (.ok a) failed go = go a := rfl

/-- The options in memory lead to what their tags lead to. -/
theorem following_options (config : UartConfig) (entries : List Entry) {b : List UInt8}
    (written : Ei.Written (encodeEntries entries).tags b) (rest : List UInt8)
    (failed : Except Stop (Program β)) (go : UartConfig → Run β) :
    following (parseOptionList config (b ++ rest)) failed (fun parsed => go parsed.1) =
      following (parseOptionListAt config (encodeEntries entries).tags) failed
        fun parsed => go parsed.1 := by
  rw [following_map _ Prod.fst, following_map _ Prod.fst, parseOptionList_written _ _ written]

/-- **`handle_configure`**, with any terms in the option list. -/
theorem handleConfigure_written (os : Os β) (entries : List Entry) {b : List UInt8}
    (written : Ei.Written (encodeEntries entries).tags b) (rest : List UInt8) (p : Program β) :
    handleConfigure os (b ++ rest) p = p.handleConfigureAt os (encodeEntries entries).tags := by
  unfold handleConfigure Program.handleConfigureAt
  rw [following_options p.currentConfig entries written rest _ fun config => some do
    match ← p.uartConfigure os config with
    | (true, p) => return (p.adopt os config).sendOkResponse
    | (false, p) => return p.sendErrorResponse p.lastError]
  cases parseOptionListAt p.currentConfig (encodeEntries entries).tags <;> rfl

/-- **`handle_open`**, with any terms in the option list. -/
theorem handleOpen_written (os : Os β) {name b₁ b₂ b₃ : List UInt8} {entries : List Entry}
    (header : (Etf.Tag.tuple 2).Writes b₁) (named : (Etf.Tag.binary name).Writes b₂)
    (short : b₂.length < 2 ^ 31) (written : Ei.Written (encodeEntries entries).tags b₃)
    (rest : List UInt8) (p : Program β) :
    handleOpen os (b₁ ++ (b₂ ++ (b₃ ++ rest))) p =
      (p.handleOpenAt os name (encodeEntries entries).tags).map .ok := by
  obtain ⟨decoded, type⟩ := Ei.decodeBinary_writes named short (b₃ ++ rest)
  have options := following_options p.currentConfig entries written rest
    (.ok (p.sendErrorResponse .einval)) fun config => some <| .ok <|
      match (if p.uartIsOpen then p.uartClose else p).uartOpen os (Program.cString name) config with
      | (true, p) => (p.adopt os config).sendOkResponse
      | (false, p) => p.sendErrorResponse p.lastError
  unfold handleOpen Program.handleOpenAt
  dsimp only
  rw [Ei.decodeTupleHeader_writes header (by decide), following_ok, if_neg (by simp), type,
    following_ok]
  by_cases long : 64 ≤ name.length
  · rw [if_pos (.inr (by simpa using long)), if_pos long]
    rfl
  · rw [if_neg (by simpa using long), if_neg long, decoded, following_ok, options]
    cases parseOptionListAt p.currentConfig (encodeEntries entries).tags <;> rfl

/-- A timeout is decoded as `Program` has it, or refused. -/
theorem following_timeout (timeout : Nat) (req : List UInt8) (go : Int → Except Stop (Program β)) :
    following ((eiDecodeLong (.int timeout)).map fun v => (v, req))
        (.error (.errx "expecting timeout")) (fun timeout => some (go (toInt timeout.1))) =
      some (Program.decodeTimeout timeout >>= go) := by
  unfold eiDecodeLong Program.decodeTimeout decodeLong
  by_cases long : LONG_MIN ≤ (timeout : Int) ∧ (timeout : Int) ≤ LONG_MAX
  · simp only [if_pos long]
    rfl
  · simp only [if_neg long]
    rfl

theorem handleWrite_written (os : Os β) {data b₁ b₂ b₃ : List UInt8} {timeout : Nat}
    (header : (Etf.Tag.tuple 2).Writes b₁) (binary : (Etf.Tag.binary data).Writes b₂)
    (int : (Etf.Tag.int timeout).Writes b₃) (short : b₂.length < 2 ^ 31)
    (short' : b₃.length < 2 ^ 31) (rest : List UInt8) (p : Program β) :
    handleWrite os (b₁ ++ (b₂ ++ (b₃ ++ rest))) p = some (p.handleWrite os data timeout) := by
  obtain ⟨decoded, type⟩ := Ei.decodeBinary_writes binary short (b₃ ++ rest)
  unfold handleWrite Program.handleWrite Program.whenOpen
  split
  · dsimp only
    rw [Ei.decodeTupleHeader_writes header (by decide), following_ok, if_neg (by simp), type,
      following_ok, if_neg (by simp), decoded, following_ok, Ei.decodeLong_writes int short']
    exact following_timeout timeout rest fun timeout => p.uartWrite os data timeout
  · rfl

theorem handleRead_written (os : Os β) {b : List UInt8} {timeout : Nat}
    (int : (Etf.Tag.int timeout).Writes b) (short : b.length < 2 ^ 31) (rest : List UInt8)
    (p : Program β) : handleRead os (b ++ rest) p = some (p.handleRead os timeout) := by
  unfold handleRead Program.handleRead Program.whenOpen
  split
  · rw [Ei.decodeLong_writes int short]
    exact following_timeout timeout rest fun timeout => p.uartRead os timeout
  · rfl

theorem handleFlush_written (os : Os β) {b : List UInt8} {direction : Direction}
    (atom : (Etf.Tag.atom (directionAtom direction)).Writes b) (rest : List UInt8)
    (p : Program β) : handleFlush os (b ++ rest) p = some (p.handleFlush os direction) := by
  unfold handleFlush
  rw [Ei.decodeAtom_writes atom]
  cases direction <;> rfl

theorem handleSet_written (set : Bool → Program β → Except Stop (Program β)) {b : List UInt8}
    {value : Bool} (atom : (Etf.Tag.atom (booleanAtom value)).Writes b) (rest : List UInt8)
    (p : Program β) : handleSet set (b ++ rest) p = some (set value p) := by
  unfold handleSet
  rw [Ei.decodeBoolean_writes atom]
  cases value <;> rfl

/-- The handler that the command's name finds, on its arguments. -/
theorem find_handler (os : Os β) (command : Command) {b : List UInt8}
    (writes : Etf.WritesAll command.arguments b) (short : b.length < 2 ^ 31) (rest : List UInt8)
    (p : Program β) :
    ∃ rh, (requestHandlers os).find? (fun rh => command.name = rh.1) = some rh ∧
      rh.2 (b ++ rest) p = some (p.handleElixirRequest os command) := by
  cases command with
  | «open» name opts =>
    refine ⟨_, rfl, ?_⟩
    obtain _ | ⟨header, _ | ⟨binary, options⟩⟩ := writes
    simp only [List.length_append] at short
    have typed := Program.handleOpenAt_options os name opts p []
    rw [List.append_nil] at typed
    rw [List.append_assoc, List.append_assoc]
    show handleOpen os _ p = _
    rw [handleOpen_written os header binary (by omega) ⟨by omega, options⟩, typed]
    rfl
  | configure opts =>
    refine ⟨_, rfl, ?_⟩
    have typed := Program.handleConfigureAt_options os opts p []
    rw [List.append_nil] at typed
    show handleConfigure os _ p = _
    rw [handleConfigure_written os _ ⟨short, writes⟩, typed]
    rfl
  | write data timeout =>
    refine ⟨_, rfl, ?_⟩
    obtain _ | ⟨header, _ | ⟨binary, _ | ⟨int, _ | _⟩⟩⟩ := writes
    simp only [List.length_append] at short
    rw [List.append_nil, List.append_assoc, List.append_assoc]
    exact handleWrite_written os header binary int (by omega) (by omega) rest p
  | read timeout =>
    refine ⟨_, rfl, ?_⟩
    obtain _ | ⟨int, _ | _⟩ := writes
    rw [List.append_nil] at short ⊢
    exact handleRead_written os int short rest p
  | flush direction =>
    refine ⟨_, rfl, ?_⟩
    obtain _ | ⟨atom, _ | _⟩ := writes
    rw [List.append_nil]
    exact handleFlush_written os atom rest p
  | setDtr value =>
    refine ⟨_, rfl, ?_⟩
    obtain _ | ⟨atom, _ | _⟩ := writes
    rw [List.append_nil]
    exact handleSet_written _ atom rest p
  | setRts value =>
    refine ⟨_, rfl, ?_⟩
    obtain _ | ⟨atom, _ | _⟩ := writes
    rw [List.append_nil]
    exact handleSet_written _ atom rest p
  | setBreak value =>
    refine ⟨_, rfl, ?_⟩
    obtain _ | ⟨atom, _ | _⟩ := writes
    rw [List.append_nil]
    exact handleSet_written _ atom rest p
  | configuration | close | drain | signals => exact ⟨_, rfl, rfl⟩

theorem decode_command (request : ApiRequest) :
    eiDecodeAtom MAXATOMLEN (.atom request.command) = .ok request.command := by
  cases request <;> (dsimp only [ApiRequest.command]; decide)

/-- **A request in memory is handled as the command that is written there**, in whatever form the
tags of the command are written, and whatever is behind it in the buffer. -/
theorem handleElixirRequest_written (os : Os β) (command : Command) {b : List UInt8}
    (writes : Etf.WritesAll command.tags b) (short : b.length < 2 ^ 31) (len₀ len₁ : UInt8)
    (rest : List UInt8) (p : Program β) :
    handleElixirRequest os (len₀ :: len₁ :: 131 :: (b ++ rest)) p =
      some (p.handleElixirRequest os command) := by
  obtain _ | ⟨header, _ | ⟨name, arguments⟩⟩ := writes
  simp only [List.length_append] at short
  obtain ⟨rh, found, handles⟩ := find_handler os command arguments (by omega) rest p
  have version (s : List UInt8) :
      Ei.decodeVersion ((len₀ :: len₁ :: 131 :: s).drop 2) = .ok s := rfl
  have named : eiDecodeAtom MAXATOMLEN (.atom command.name) = .ok command.name :=
    decode_command command.request
  unfold handleElixirRequest
  dsimp only
  rw [version, following_ok, List.append_assoc,
    Ei.decodeTupleHeader_writes header (by decide), following_ok, if_neg (by simp),
    List.append_assoc, Ei.decodeAtom_writes name, named, Verdict.map, following_ok]
  dsimp only
  rw [found]
  exact handles

end

end Encoded

end CircuitsUart
