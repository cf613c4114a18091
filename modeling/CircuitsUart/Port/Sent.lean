import CircuitsUart.Port.EiEncode
import CircuitsUart.Port.Report

/-!
# The messages to Elixir

What `send_ok_response`, `send_error_response`, `handle_configuration`, `handle_signals`,
`handle_read_completed` and `handle_notify_read` put together for `erlcmd_send`, each in a buffer
of its own size: an id, and a term in the external format.

A message has room in its buffer, is not longer than its length can say, and is read back by
`:erlang.binary_to_term` as the term that the GenServer matches on.

The response with the options is given twice. First as the source has it, one call of `ei_encode_*`
after the other, and then as one function of the list that is meant (`encodeTerm`); the two are
equal bytes (`configuration_eq`). The second is the one to reason about: that its bytes are the
list is an induction over terms, whatever the options are.

What is `Sendable` depends on the program and not on the encoders. Data is no longer than the
program reads at once, and the options are those of a configuration whose fields are as small as
their C types; both are kept by every event.
-/

set_option autoImplicit false

namespace CircuitsUart

open Lib Port Ei

/-! ## The code -/

/-- `response_id`, an `r`. -/
def responseId : UInt8 := 0x72

/-- `notification_id`, an `n`. -/
def notificationId : UInt8 := 0x6e

/-- The strings of `record_last_error`. -/
def Reason.atom : Reason → String
  | .ok => "ok"
  | .enoent => "enoent"
  | .ebadf => "ebadf"
  | .eperm => "eperm"
  | .eacces => "eacces"
  | .eagain => "eagain"
  | .ecanceled => "ecanceled"
  | .eio => "eio"
  | .eintr => "eintr"
  | .enotty => "enotty"
  | .einval => "einval"

namespace Sent

/-- `send_ok_response`, behind the two bytes of length, as all the others. -/
def okResponse : List UInt8 := responseId :: (encodeVersion ++ encodeAtom (ascii "ok"))

/-- `send_error_response`. -/
def errorResponse (reason : Reason) : List UInt8 :=
  responseId :: (encodeVersion ++ encodeTupleHeader 2 ++ encodeAtom (ascii "error") ++
    encodeAtom (ascii reason.atom))

/-- `handle_configuration`. -/
def configuration (config : UartConfig) : List UInt8 :=
  responseId :: (encodeVersion ++ (encodeConfiguration config).flatMap encodeTag)

/-- `handle_read_completed`. -/
def readCompleted (data : List UInt8) : List UInt8 :=
  responseId :: (encodeVersion ++ encodeTupleHeader 2 ++ encodeAtom (ascii "ok") ++
    encodeBinary data)

/-- `handle_notify_read`, without an error. -/
def notifyRead (data : List UInt8) : List UInt8 :=
  notificationId :: (encodeVersion ++ encodeTupleHeader 2 ++ encodeAtom (ascii "notif") ++
    encodeBinary data)

/-- `handle_notify_read`, with an error. -/
def notifyError (reason : Reason) : List UInt8 :=
  notificationId :: (encodeVersion ++ encodeTupleHeader 2 ++ encodeAtom (ascii "notif") ++
    encodeTupleHeader 2 ++ encodeAtom (ascii "error") ++ encodeAtom (ascii reason.atom))

/-- `encode_kv_bool`. -/
def encodeKvBool (key : String) (value : Bool) : List UInt8 :=
  encodeAtom (ascii key) ++ Ei.encodeBoolean (ofBool value)

/-- `handle_signals`. -/
def signals (sig : Signals) : List UInt8 :=
  responseId :: (encodeVersion ++ encodeTupleHeader 2 ++ encodeAtom (ascii "ok") ++
    encodeMapHeader 8 ++ encodeKvBool "dsr" sig.dsr ++ encodeKvBool "dtr" sig.dtr ++
    encodeKvBool "rts" sig.rts ++ encodeKvBool "st" sig.st ++ encodeKvBool "sr" sig.sr ++
    encodeKvBool "cts" sig.cts ++ encodeKvBool "cd" sig.cd ++ encodeKvBool "rng" sig.rng)

end Sent

/-! ## Any term -/

mutual

/-- A term, a list cell by cell as `handle_configuration` writes it. -/
def encodeTerm : Term → List UInt8
  | .atom name => encodeAtom (ascii name)
  | .int value => encodeLong value
  | .binary bytes => encodeBinary bytes
  | .tuple elems => encodeTupleHeader elems.length ++ encodeTerms elems
  | .list elems => encodeCells elems

def encodeTerms : List Term → List UInt8
  | [] => []
  | t :: ts => encodeTerm t ++ encodeTerms ts

def encodeCells : List Term → List UInt8
  | [] => encodeEmptyList
  | t :: ts => encodeListHeader 1 ++ (encodeTerm t ++ encodeCells ts)

end

mutual

/-- Names, numbers and sizes that are written as they are. -/
def Term.Fits : Term → Prop
  | .atom name => Nameable name
  | .int value => LONG_MIN ≤ value ∧ value ≤ LONG_MAX
  | .binary bytes => bytes.length < 2 ^ 32
  | .tuple elems => elems.length < 2 ^ 32 ∧ allFit elems
  | .list elems => allFit elems

def allFit : List Term → Prop
  | [] => True
  | t :: ts => t.Fits ∧ allFit ts

end

theorem length_termsEtf (ts : List Term) : (termsEtf ts).length = ts.length := by
  induction ts with
  | nil => rfl
  | cons t ts ih => exact congrArg (· + 1) ih

mutual

theorem encodeTerm_encodes : (t : Term) → t.Fits → Etf.Encodes [t.etf] (encodeTerm t)
  | .atom _, fits => .atom (encodeAtom_writes fits)
  | .int _, fits => .int (encodeLong_writes fits)
  | .binary _, fits => .binary (encodeBinary_writes fits)
  | .tuple elems, fits =>
    .tuple (by rw [length_termsEtf]; exact encodeTupleHeader_writes fits.1)
      (encodeTerms_encodes elems fits.2)
  | .list elems, fits => encodeCells_encodes elems fits

theorem encodeTerms_encodes : (ts : List Term) → allFit ts →
    Etf.Encodes (termsEtf ts) (encodeTerms ts)
  | [], _ => .nil
  | t :: ts, fits => (encodeTerm_encodes t fits.1).append (encodeTerms_encodes ts fits.2)

theorem encodeCells_encodes : (ts : List Term) → allFit ts →
    Etf.Encodes [cellsEtf ts] (encodeCells ts)
  | [], _ => .empty encodeEmptyList_writes
  | t :: ts, fits =>
    .cell (encodeListHeader_writes Nat.one_pos (by decide)) (encodeTerm_encodes t fits.1)
      (encodeCells_encodes ts fits.2)

end

/-! ## Messages -/

/-- A boolean of the VM. -/
def boolean (v : Bool) : Etf.Term := .atom (if v then "true" else "false")

/-- The keys and the values of the map. -/
def Signals.etf (sig : Signals) : List Etf.Term := [
  .atom "dsr", boolean sig.dsr, .atom "dtr", boolean sig.dtr, .atom "rts", boolean sig.rts,
  .atom "st", boolean sig.st, .atom "sr", boolean sig.sr, .atom "cts", boolean sig.cts,
  .atom "cd", boolean sig.cd, .atom "rng", boolean sig.rng]

/-- The term that the GenServer matches on. -/
def Port.Out.term : Out UInt8 → Etf.Term
  | .response .ok => .atom "ok"
  | .response (.error reason) => .tuple [.atom "error", .atom reason.atom]
  | .response (.data bytes) => .tuple [.atom "ok", .binary bytes]
  | .response (.options opts) => cellsEtf opts
  | .response (.signals sig) => .tuple [.atom "ok", .map sig.etf]
  | .notif (.data bytes) => .tuple [.atom "notif", .binary bytes]
  | .notif (.error reason) =>
    .tuple [.atom "notif", .tuple [.atom "error", .atom reason.atom]]

def Port.Out.id : Out UInt8 → UInt8
  | .response _ => responseId
  | .notif _ => notificationId

/-- The bytes that `erlcmd_send` is given, behind the two of the length. -/
def Port.Out.body : Out UInt8 → List UInt8
  | .response .ok => Sent.okResponse
  | .response (.error reason) => Sent.errorResponse reason
  | .response (.data bytes) => Sent.readCompleted bytes
  | .response (.options opts) => responseId :: (encodeVersion ++ encodeTerm (.list opts))
  | .response (.signals sig) => Sent.signals sig
  | .notif (.data bytes) => Sent.notifyRead bytes
  | .notif (.error reason) => Sent.notifyError reason

/-- The size of the buffer that the message is put together in. -/
def Port.Out.room : Out UInt8 → Nat
  | .response .ok | .response (.error _) => 256
  | .response (.data bytes) => 32 + bytes.length
  | .response (.options _) => 512
  | .response (.signals _) => 128
  | .notif (.data bytes) => 64 + bytes.length
  | .notif (.error _) => 64

/-- What the program sends: no more than it reads at once, and the options of a configuration. -/
def Port.Out.Sendable : Out UInt8 → Prop
  | .response (.data bytes) | .notif (.data bytes) => bytes.length ≤ 4096
  | .response (.options opts) => ∃ config : UartConfig, config.Ok ∧ opts = reported config
  | _ => True

/-! ### What they say -/

def Reason.ofAtom (name : String) : Option Reason :=
  [Reason.ok, .enoent, .ebadf, .eperm, .eacces, .eagain, .ecanceled, .eio, .eintr, .enotty,
    .einval].find? fun reason => reason.atom = name

/-- The value of a key that is `true` or `false`. -/
def flag (key : String) : List Etf.Term → Option Bool
  | .atom k :: .atom v :: rest =>
    if k = key then
      if v = "true" then some true else if v = "false" then some false else none
    else flag key rest
  | _ => none

def Signals.ofEtf (kvs : List Etf.Term) : Option Signals := do
  let dsr ← flag "dsr" kvs
  let dtr ← flag "dtr" kvs
  let rts ← flag "rts" kvs
  let st ← flag "st" kvs
  let sr ← flag "sr" kvs
  let cts ← flag "cts" kvs
  let cd ← flag "cd" kvs
  let rng ← flag "rng" kvs
  return ⟨dsr, dtr, rts, st, sr, cts, cd, rng⟩

/-- `{:error, reason}`, with a reason there is. -/
def Reason.ofTerm : Etf.Term → Option Reason
  | .tuple [.atom tag, .atom name] => if tag = "error" then Reason.ofAtom name else none
  | _ => none

def Response.ofTerm : Etf.Term → Option (Response UInt8)
  | .atom name => if name = "ok" then some .ok else none
  | .tuple [.atom tag, .binary bytes] => if tag = "ok" then some (.data bytes) else none
  | .tuple [.atom tag, .map kvs] => if tag = "ok" then (Signals.ofEtf kvs).map .signals else none
  | .tuple elems => (Reason.ofTerm (.tuple elems)).map .error
  | t =>
    match Term.ofEtf t with
    | some (.list opts) => some (.options opts)
    | _ => none

def Notification.ofTerm : Etf.Term → Option (Notification UInt8)
  | .tuple [.atom tag, .binary bytes] => if tag = "notif" then some (.data bytes) else none
  | .tuple [.atom tag, reason] =>
    if tag = "notif" then (Reason.ofTerm reason).map .error else none
  | _ => none

/-- What the GenServer takes a message of the port for. -/
def Port.Out.ofMessage : List UInt8 → Option (Out UInt8)
  | [] => none
  | id :: message =>
    (Etf.binaryToTerm message).bind fun t =>
      if id = responseId then (Response.ofTerm t).map .response
      else if id = notificationId then (Notification.ofTerm t).map .notif
      else none

theorem Reason.ofAtom_atom (reason : Reason) : Reason.ofAtom reason.atom = some reason := by
  cases reason <;> decide

theorem flag_boolean (key : String) (v : Bool) (rest : List Etf.Term) :
    flag key (.atom key :: boolean v :: rest) = some v := by
  rw [boolean, flag, if_pos rfl]
  cases v <;> rfl

theorem flag_other {key k : String} (other : k ≠ key) (v : Bool) (rest : List Etf.Term) :
    flag key (.atom k :: boolean v :: rest) = flag key rest := by
  rw [boolean, flag, if_neg other]

theorem Signals.ofEtf_etf (sig : Signals) : Signals.ofEtf sig.etf = some sig := by
  unfold Signals.ofEtf Signals.etf
  simp [flag_boolean, flag_other]

theorem Response.ofTerm_cells (opts : List Term) :
    Response.ofTerm (cellsEtf opts) = some (.options opts) := by
  have back := ofEtf_cellsEtf opts
  cases opts with
  | nil => rfl
  | cons t ts =>
    rw [cellsEtf] at back ⊢
    rw [Response.ofTerm, back] <;> simp

/-- **The term says what was sent.** -/
theorem Port.Out.ofTerm_term (o : Out UInt8) :
    (if o.id = responseId then (Response.ofTerm o.term).map Out.response
      else if o.id = notificationId then (Notification.ofTerm o.term).map Out.notif else none) =
      some o := by
  have notR : notificationId ≠ responseId := by decide
  cases o with
  | response r =>
    rw [Out.id, if_pos rfl]
    cases r with
    | ok => rfl
    | error reason =>
      show (Option.map _ (Option.map _ (Reason.ofAtom reason.atom))) = _
      rw [Reason.ofAtom_atom]
      rfl
    | data bytes => rfl
    | options opts =>
      rw [Out.term, Response.ofTerm_cells]
      rfl
    | signals sig =>
      show (Option.map _ (Option.map _ (Signals.ofEtf sig.etf))) = _
      rw [Signals.ofEtf_etf]
      rfl
  | notif n =>
    rw [Out.id, if_neg notR, if_pos rfl]
    cases n with
    | data bytes => rfl
    | error reason =>
      show (Option.map _ (Option.map _ (Reason.ofAtom reason.atom))) = _
      rw [Reason.ofAtom_atom]
      rfl

/-! ### The bytes are the term -/

theorem Reason.nameable (reason : Reason) : Nameable reason.atom := by cases reason <;> decide

theorem encodeKvBool_encodes {key : String} (nameable : Nameable key) (v : Bool) :
    Etf.Encodes [.atom key, boolean v] (Sent.encodeKvBool key v) := by
  have value := encodeBoolean_writes (ofBool v)
  have same : (if ofBool v ≠ 0 then "true" else "false") = if v then "true" else "false" := by
    cases v <;> rfl
  rw [same] at value
  exact (Etf.Encodes.atom (encodeAtom_writes nameable)).append (.atom value)

theorem Signals.distinct (sig : Signals) :
    (Etf.keys sig.etf).Pairwise fun a b => a.same b = false := by
  show List.Pairwise _ [Etf.Term.atom "dsr", .atom "dtr", .atom "rts", .atom "st", .atom "sr",
    .atom "cts", .atom "cd", .atom "rng"]
  decide

/-- `{tag, value}`. -/
theorem pair_encodes {tag : String} (nameable : Nameable tag) {t : Etf.Term} {b : List UInt8}
    (value : Etf.Encodes [t] b) :
    Etf.Encodes [.tuple [.atom tag, t]] (encodeTupleHeader 2 ++ (encodeAtom (ascii tag) ++ b)) :=
  .tuple (encodeTupleHeader_writes (show 2 < 2 ^ 32 by decide))
    ((Etf.Encodes.atom (encodeAtom_writes nameable)).append value)

theorem Reason.encodes (reason : Reason) :
    Etf.Encodes [.atom reason.atom] (encodeAtom (ascii reason.atom)) :=
  .atom (encodeAtom_writes reason.nameable)

theorem Signals.encodes (sig : Signals) :
    Etf.Encodes sig.etf (Sent.encodeKvBool "dsr" sig.dsr ++ (Sent.encodeKvBool "dtr" sig.dtr ++
      (Sent.encodeKvBool "rts" sig.rts ++ (Sent.encodeKvBool "st" sig.st ++
      (Sent.encodeKvBool "sr" sig.sr ++ (Sent.encodeKvBool "cts" sig.cts ++
      (Sent.encodeKvBool "cd" sig.cd ++ Sent.encodeKvBool "rng" sig.rng))))))) :=
  (encodeKvBool_encodes (by decide) sig.dsr).append <|
  (encodeKvBool_encodes (by decide) sig.dtr).append <|
  (encodeKvBool_encodes (by decide) sig.rts).append <|
  (encodeKvBool_encodes (by decide) sig.st).append <|
  (encodeKvBool_encodes (by decide) sig.sr).append <|
  (encodeKvBool_encodes (by decide) sig.cts).append <|
  (encodeKvBool_encodes (by decide) sig.cd).append <|
  encodeKvBool_encodes (by decide) sig.rng

theorem allFit_append {ts us : List Term} (h : allFit ts) (k : allFit us) : allFit (ts ++ us) := by
  induction ts with
  | nil => exact k
  | cons t ts ih => exact ⟨h.1, ih h.2⟩

theorem pair_fits {key : String} {t : Term} (nameable : Nameable key) (fits : t.Fits) :
    (Term.pair key t).Fits := ⟨show 2 < 2 ^ 32 by decide, nameable, fits, trivial⟩

theorem int_fits {v : Int} (int : toInt v = v) : (Term.int v).Fits :=
  decodeLong_bounds (decodeLong_int int)

theorem bool_fits (v : Bool) : (Term.bool v).Fits := nameable_boolean _

/-- What is reported of a configuration that its fields can hold can be written. -/
theorem reported_fits {config : UartConfig} (ok : config.Ok) : allFit (reported config) := by
  have parity : Nameable config.parity.atom := by cases config.parity <;> decide
  have flowControl : Nameable config.flowControl.atom := by cases config.flowControl <;> decide
  have line : allFit (lineReport config) :=
    ⟨pair_fits (by decide) (int_fits ok.speed), pair_fits (by decide) (int_fits ok.dataBits),
      pair_fits (by decide) (int_fits ok.stopBits), pair_fits (by decide) parity,
      pair_fits (by decide) flowControl, trivial⟩
  have rs485 : allFit (rs485Report config) :=
    ⟨pair_fits (by decide) (bool_fits _), pair_fits (by decide) (bool_fits _),
      pair_fits (by decide) (bool_fits _), pair_fits (by decide) (bool_fits _),
      pair_fits (by decide) (bool_fits _), pair_fits (by decide) ok.delayBefore,
      pair_fits (by decide) ok.delayAfter, trivial⟩
  refine allFit_append line ?_
  split
  · exact rs485
  · trivial

/-- **A message is an id and the bytes of its term.** -/
theorem Port.Out.body_encodes {o : Out UInt8} (sendable : o.Sendable) :
    ∃ b, o.body = o.id :: 131 :: b ∧ Etf.Encodes [o.term] b := by
  cases o with
  | response r =>
    cases r with
    | ok => exact ⟨_, rfl, .atom (encodeAtom_writes (by decide))⟩
    | error reason =>
      refine ⟨encodeTupleHeader 2 ++ encodeAtom (ascii "error") ++ encodeAtom (ascii reason.atom),
        rfl, ?_⟩
      rw [List.append_assoc]
      exact pair_encodes (by decide) reason.encodes
    | data bytes =>
      refine ⟨encodeTupleHeader 2 ++ encodeAtom (ascii "ok") ++ encodeBinary bytes, rfl, ?_⟩
      rw [List.append_assoc]
      have fits : bytes.length ≤ 4096 := sendable
      exact pair_encodes (by decide) (.binary (encodeBinary_writes (by omega)))
    | options opts =>
      obtain ⟨config, ok, rfl⟩ := sendable
      exact ⟨_, rfl, encodeCells_encodes _ (reported_fits ok)⟩
    | signals sig =>
      refine ⟨encodeTupleHeader 2 ++ encodeAtom (ascii "ok") ++ encodeMapHeader 8 ++
        Sent.encodeKvBool "dsr" sig.dsr ++ Sent.encodeKvBool "dtr" sig.dtr ++
        Sent.encodeKvBool "rts" sig.rts ++ Sent.encodeKvBool "st" sig.st ++
        Sent.encodeKvBool "sr" sig.sr ++ Sent.encodeKvBool "cts" sig.cts ++
        Sent.encodeKvBool "cd" sig.cd ++ Sent.encodeKvBool "rng" sig.rng, rfl, ?_⟩
      simp only [List.append_assoc]
      exact pair_encodes (by decide)
        (.map (encodeMapHeader_writes (show 8 < 2 ^ 32 by decide)) sig.encodes sig.distinct)
  | notif n =>
    cases n with
    | data bytes =>
      refine ⟨encodeTupleHeader 2 ++ encodeAtom (ascii "notif") ++ encodeBinary bytes, rfl, ?_⟩
      rw [List.append_assoc]
      have fits : bytes.length ≤ 4096 := sendable
      exact pair_encodes (by decide) (.binary (encodeBinary_writes (by omega)))
    | error reason =>
      refine ⟨encodeTupleHeader 2 ++ encodeAtom (ascii "notif") ++ encodeTupleHeader 2 ++
        encodeAtom (ascii "error") ++ encodeAtom (ascii reason.atom), rfl, ?_⟩
      simp only [List.append_assoc]
      exact pair_encodes (by decide) (pair_encodes (by decide) reason.encodes)

/-- **What is sent is what is received.** -/
theorem Port.Out.ofMessage_body {o : Out UInt8} (sendable : o.Sendable) :
    Out.ofMessage o.body = some o := by
  obtain ⟨b, body, encodes⟩ := o.body_encodes sendable
  rw [body, Out.ofMessage, encodes.binaryToTerm, Option.bind_some]
  exact o.ofTerm_term

/-- The pairs of `handle_configuration` are those reported. -/
theorem configuration_eq (config : UartConfig) :
    Sent.configuration config = Out.body (.response (.options (reported config))) := by
  unfold Sent.configuration encodeConfiguration reported Out.body
  split
  · simp [lineReport, rs485Report, Term.pair, Term.bool, encodePair, Port.encodeBoolean, encodeTag,
      encodeTerm, encodeTerms, encodeCells]
  · simp [lineReport, Term.pair, encodePair, encodeTag, encodeTerm, encodeTerms, encodeCells]

/-! ### The buffers are large enough -/

theorem length_pair (key : String) {k n : Nat} {value : Etf.Tag} (name : key.length = k)
    (small : (encodeTag value).length ≤ n) :
    ((encodePair key value).flatMap encodeTag).length ≤ 10 + k + n := by
  have atom := length_encodeAtom key
  have list : (encodeListHeader 1).length = 5 := rfl
  have tuple : (encodeTupleHeader 2).length = 2 := rfl
  simp only [encodePair, List.flatMap_cons, List.flatMap_nil, List.length_append, encodeTag,
    List.length_nil, list, tuple] at small ⊢
  omega

theorem length_int {v : Int} (int : toInt v = v) : (encodeTag (.int v)).length ≤ 7 := by
  have low := BitVec.le_toInt (BitVec.ofInt 32 v)
  have high := BitVec.toInt_lt (x := BitVec.ofInt 32 v)
  rw [show (BitVec.ofInt 32 v).toInt = v from int] at low high
  have small : v.natAbs < 256 ^ 4 := by omega
  exact length_encodeLong (by decide) small

theorem length_long {v : Int} (long : LONG_MIN ≤ v ∧ v ≤ LONG_MAX) :
    (encodeTag (.int v)).length ≤ 11 := by
  unfold LONG_MIN LONG_MAX at long
  have small : v.natAbs < 256 ^ 8 := by omega
  exact length_encodeLong (by decide) small

theorem length_boolean (v : Int) : (encodeTag (Port.encodeBoolean v)).length ≤ 8 := by
  unfold Port.encodeBoolean
  split <;> decide

/-- The whole configuration takes 411 bytes at most. -/
theorem length_configuration {config : UartConfig} (ok : config.Ok) :
    (Sent.configuration config).length + 2 ≤ 411 := by
  have parity : (encodeTag (.atom config.parity.atom)).length ≤ 9 := by
    cases config.parity <;> decide
  have flowControl : (encodeTag (.atom config.flowControl.atom)).length ≤ 11 := by
    cases config.flowControl <;> decide
  have speed := length_pair "speed" (show _ = 5 from rfl) (length_int ok.speed)
  have dataBits := length_pair "data_bits" (show _ = 9 from rfl) (length_int ok.dataBits)
  have stopBits := length_pair "stop_bits" (show _ = 9 from rfl) (length_int ok.stopBits)
  have parity := length_pair "parity" (show _ = 6 from rfl) parity
  have flowControl := length_pair "flow_control" (show _ = 12 from rfl) flowControl
  have enabled := length_pair "rs485_enabled" (show _ = 13 from rfl)
    (length_boolean config.rs485Enabled)
  have onSend := length_pair "rs485_rts_on_send" (show _ = 17 from rfl)
    (length_boolean config.rs485RtsOnSend)
  have afterSend := length_pair "rs485_rts_after_send" (show _ = 20 from rfl)
    (length_boolean config.rs485RtsAfterSend)
  have duringTx := length_pair "rs485_rx_during_tx" (show _ = 18 from rfl)
    (length_boolean config.rs485RxDuringTx)
  have terminateBus := length_pair "rs485_terminate_bus" (show _ = 19 from rfl)
    (length_boolean config.rs485TerminateBus)
  have delayBefore := length_pair "rs485_delay_rts_before_send" (show _ = 27 from rfl)
    (length_long ok.delayBefore)
  have delayAfter := length_pair "rs485_delay_rts_after_send" (show _ = 26 from rfl)
    (length_long ok.delayAfter)
  have nil : ([Etf.Tag.nil].flatMap encodeTag).length = 1 := rfl
  have version : encodeVersion.length = 1 := rfl
  unfold Sent.configuration encodeConfiguration
  simp only [List.length_cons, List.length_append, List.flatMap_append, nil, version]
  split
  · simp only [List.length_append, List.flatMap_append]
    omega
  · simp only [List.flatMap_nil, List.length_nil]
    omega

theorem length_kvBool (key : String) {k : Nat} (name : key.length = k) (v : Bool) :
    (Sent.encodeKvBool key v).length ≤ 11 + k := by
  have atom := length_encodeAtom key
  have value := length_encodeBoolean (ofBool v)
  rw [Sent.encodeKvBool, List.length_append]
  omega

/-- The signals take 125 bytes at most. -/
theorem length_signals (sig : Signals) : (Sent.signals sig).length + 2 ≤ 125 := by
  have version : encodeVersion.length = 1 := rfl
  have tuple : (encodeTupleHeader 2).length = 2 := rfl
  have ok : (encodeAtom (ascii "ok")).length = 5 := rfl
  have map : (encodeMapHeader 8).length = 5 := rfl
  have dsr := length_kvBool "dsr" (show _ = 3 from rfl) sig.dsr
  have dtr := length_kvBool "dtr" (show _ = 3 from rfl) sig.dtr
  have rts := length_kvBool "rts" (show _ = 3 from rfl) sig.rts
  have st := length_kvBool "st" (show _ = 2 from rfl) sig.st
  have sr := length_kvBool "sr" (show _ = 2 from rfl) sig.sr
  have cts := length_kvBool "cts" (show _ = 3 from rfl) sig.cts
  have cd := length_kvBool "cd" (show _ = 2 from rfl) sig.cd
  have rng := length_kvBool "rng" (show _ = 3 from rfl) sig.rng
  simp only [Sent.signals, List.length_cons, List.length_append, version, tuple, ok, map]
  omega

/-- **Every message has room** in the buffer it is put together in. -/
theorem Port.Out.body_room {o : Out UInt8} (sendable : o.Sendable) :
    o.body.length + 2 ≤ o.room := by
  have version : encodeVersion.length = 1 := rfl
  have tuple : (encodeTupleHeader 2).length = 2 := rfl
  cases o with
  | response r =>
    cases r with
    | ok => exact (by decide : Sent.okResponse.length + 2 ≤ 256)
    | error reason =>
      show (Sent.errorResponse reason).length + 2 ≤ 256
      cases reason <;> decide
    | data bytes =>
      have ok : (encodeAtom (ascii "ok")).length = 5 := rfl
      simp only [Out.body, Out.room, Sent.readCompleted, List.length_cons, List.length_append,
        version, tuple, ok, length_encodeBinary]
      omega
    | options opts =>
      obtain ⟨config, ok, rfl⟩ := sendable
      rw [← configuration_eq]
      exact (length_configuration ok).trans (show 411 ≤ 512 by decide)
    | signals sig => exact (length_signals sig).trans (show 125 ≤ 128 by decide)
  | notif n =>
    cases n with
    | data bytes =>
      have notif : (encodeAtom (ascii "notif")).length = 8 := rfl
      simp only [Out.body, Out.room, Sent.notifyRead, List.length_cons, List.length_append,
        version, tuple, notif, length_encodeBinary]
      omega
    | error reason =>
      show (Sent.notifyError reason).length + 2 ≤ 64
      cases reason <;> decide

/-- Nor is a message longer than its length can say. -/
theorem Port.Out.body_short {o : Out UInt8} (sendable : o.Sendable) :
    o.body.length < 256 ^ 2 := by
  have room := o.body_room sendable
  have small : o.room ≤ 4160 := by
    cases o with
    | response r =>
      cases r with
      | data bytes =>
        have fits : bytes.length ≤ 4096 := sendable
        show 32 + bytes.length ≤ 4160
        omega
      | _ => simp [Out.room]
    | notif n =>
      cases n with
      | data bytes =>
        have fits : bytes.length ≤ 4096 := sendable
        show 64 + bytes.length ≤ 4160
        omega
      | _ => simp [Out.room]
  omega

end CircuitsUart
