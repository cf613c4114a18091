import CircuitsUart.Lib.Run
import CircuitsUart.Port.Uart

/-!
# The C program as a process

`circuits_uart.c`: the request handlers, and the main loop as a step function. An event is a
request, or one call of `uart_process`; the loop may do either at any time. What is written
to standard output is emitted, as labels, by the step that writes it.

The loop of the source asks `poll` whether the device may be read or written. Here an event may be
anything at any time, so that what is proved of every run is proved of those in which `poll` wakes
for nothing as well. How long it may sleep is the subject of `Port.Poll`.

`errno` survives between two events, but not unharmed: the rest of the loop makes calls of its
own. So every event begins with whatever `errno` its `Os` says (`enter`), and a response that
gives an old `errno` can be seen to.
-/

set_option autoImplicit false

namespace CircuitsUart

open Port

/-- A request the C program can decode: its timeout, if it has one, is a `long`. -/
def Command.WellFormed : Command → Prop
  | .write _ timeout => timeout ≤ LONG_MAX
  | .read timeout => timeout ≤ LONG_MAX
  | _ => True

instance : DecidablePred Command.WellFormed
  | .write _ timeout => inferInstanceAs (Decidable (timeout ≤ LONG_MAX))
  | .read timeout => inferInstanceAs (Decidable (timeout ≤ LONG_MAX))
  | .open _ _ | .configure _ | .configuration | .close | .drain | .flush _ | .signals
  | .setDtr _ | .setRts _ | .setBreak _ => inferInstanceAs (Decidable True)

/-- A request that neither opens, configures or closes the port, nor reads or writes. -/
def Command.plain : Command → Bool
  | .open _ _ | .configure _ | .close | .write _ _ | .read _ => false
  | .configuration | .drain | .flush _ | .signals | .setDtr _ | .setRts _ | .setBreak _ => true

/-! ## The report -/

/-- The options that `handle_configuration` writes whatever the configuration. -/
def Port.lineReport (config : UartConfig) : List Term := [
  .pair "speed" (.int config.speed),
  .pair "data_bits" (.int config.dataBits),
  .pair "stop_bits" (.int config.stopBits),
  .pair "parity" (.atom config.parity.atom),
  .pair "flow_control" (.atom config.flowControl.atom)]

/-- The options that it writes when RS485 has been set. -/
def Port.rs485Report (config : UartConfig) : List Term := [
  .pair "rs485_enabled" (.bool (config.rs485Enabled ≠ 0)),
  .pair "rs485_rts_on_send" (.bool (config.rs485RtsOnSend ≠ 0)),
  .pair "rs485_rts_after_send" (.bool (config.rs485RtsAfterSend ≠ 0)),
  .pair "rs485_rx_during_tx" (.bool (config.rs485RxDuringTx ≠ 0)),
  .pair "rs485_terminate_bus" (.bool (config.rs485TerminateBus ≠ 0)),
  .pair "rs485_delay_rts_before_send" (.int config.rs485DelayRtsBeforeSend),
  .pair "rs485_delay_rts_after_send" (.int config.rs485DelayRtsAfterSend)]

/-- The options in its response. -/
def Port.reported (config : UartConfig) : List Term :=
  lineReport config ++ if -1 < config.rs485Enabled then rs485Report config else []

namespace Program

variable {β : Type}

/-! ## The request handlers -/

/-- `:ok`, or `{:error, uart_last_error()}`. -/
def respond : Bool × Program β → Program β
  | (true, p) => p.sendOkResponse
  | (false, p) => p.sendErrorResponse p.lastError

/-- A string up to its terminating zero. -/
def cString (bytes : List UInt8) : List UInt8 := bytes.takeWhile (· ≠ 0)

/-- `uart_get_rs485_config` and `current_config = config`. -/
def adopt (os : Os β) (config : UartConfig) (p : Program β) : Program β :=
  let r := p.uartGetRs485Config os config
  { r.2 with currentConfig := r.1 }

/-- `handle_open`. -/
def handleOpen (os : Os β) (name : List UInt8) (opts : List UartOption) (p : Program β) :
    Program β :=
  if 64 ≤ name.length then p.sendErrorResponse .enoent
  else
    match configure p.currentConfig opts with
    | none => p.sendErrorResponse .einval
    | some config =>
      -- an open port is closed even if the new one cannot be opened
      let p := if p.uartIsOpen then p.uartClose else p
      match p.uartOpen os (cString name) config with
      | (true, p) => (p.adopt os config).sendOkResponse
      | (false, p) => p.sendErrorResponse p.lastError

/-- `handle_configure`. -/
def handleConfigure (os : Os β) (opts : List UartOption) (p : Program β) :
    Except Stop (Program β) :=
  match configure p.currentConfig opts with
  | none => .ok (p.sendErrorResponse .einval)
  | some config => do
    match ← p.uartConfigure os config with
    | (true, p) => return (p.adopt os config).sendOkResponse
    | (false, p) => return p.sendErrorResponse p.lastError

/-- `handle_configuration`. -/
def handleConfiguration (p : Program β) : Program β :=
  p.send (.response (.options (reported p.currentConfig)))

/-- `handle_close`. -/
def handleClose (p : Program β) : Program β :=
  let p := if p.uartIsOpen then p.uartClose else p
  p.sendOkResponse

/-- A handler that answers `{:error, :ebadf}` on a closed port. -/
def whenOpen (p : Program β) (go : Program β → Except Stop (Program β)) : Except Stop (Program β) :=
  if p.uartIsOpen then go p else .ok (p.sendErrorResponse .ebadf)

/-- `ei_decode_long` of a timeout, passed on as an `int`. -/
def decodeTimeout (timeout : Nat) : Except Stop Int :=
  match decodeLong (.int timeout) with
  | some v => .ok (toInt v)
  | none => .error (.errx "expecting timeout")

/-- `handle_write`. -/
def handleWrite (os : Os β) (data : List UInt8) (timeout : Nat) (p : Program β) :
    Except Stop (Program β) :=
  p.whenOpen fun p => do
    let timeout ← decodeTimeout timeout
    p.uartWrite os data timeout

/-- `handle_read`. -/
def handleRead (os : Os β) (timeout : Nat) (p : Program β) : Except Stop (Program β) :=
  p.whenOpen fun p => do
    let timeout ← decodeTimeout timeout
    p.uartRead os timeout

/-- `handle_drain`. -/
def handleDrain (os : Os β) (p : Program β) : Except Stop (Program β) :=
  p.whenOpen fun p => return respond (← p.uartDrain os)

/-- `handle_flush`. -/
def handleFlush (os : Os β) (direction : Direction) (p : Program β) : Except Stop (Program β) :=
  p.whenOpen fun p => return respond (← p.uartFlush os direction)

/-- `handle_set_rts`. -/
def handleSetRts (os : Os β) (val : Bool) (p : Program β) : Except Stop (Program β) :=
  p.whenOpen fun p => .ok (respond (p.uartSetRts os val))

/-- `handle_set_dtr`. -/
def handleSetDtr (os : Os β) (val : Bool) (p : Program β) : Except Stop (Program β) :=
  p.whenOpen fun p => .ok (respond (p.uartSetDtr os val))

/-- `handle_set_break`. -/
def handleSetBreak (os : Os β) (val : Bool) (p : Program β) : Except Stop (Program β) :=
  p.whenOpen fun p => .ok (respond (p.uartSetBreak os val))

/-- `handle_signals`. -/
def handleSignals (os : Os β) (p : Program β) : Except Stop (Program β) :=
  p.whenOpen fun p =>
    match p.uartGetSignals os with
    | (some sig, p) => .ok (p.send (.response (.signals sig)))
    | (none, p) => .ok (p.sendErrorResponse p.lastError)

/-- `handle_elixir_request`. -/
def handleElixirRequest (os : Os β) (command : Command) (p : Program β) : Except Stop (Program β) :=
  match command with
  | .write data timeout => p.handleWrite os data timeout
  | .read timeout => p.handleRead os timeout
  | .flush direction => p.handleFlush os direction
  | .drain => p.handleDrain os
  | .open name opts => .ok (p.handleOpen os name opts)
  | .configure opts => p.handleConfigure os opts
  | .configuration => .ok p.handleConfiguration
  | .close => .ok p.handleClose
  | .signals => p.handleSignals os
  | .setRts value => p.handleSetRts os value
  | .setDtr value => p.handleSetDtr os value
  | .setBreak value => p.handleSetBreak os value

/-! ## The main loop -/

/-- What the main loop does next. -/
inductive Event (β : Type)
  | request (os : Os β) (command : Command)
  | process (os : Os β)

inductive Label (β : Type)
  | dispatched (command : Command)
  | sent (o : Out β)

/-- Between two events, the rest of the loop leaves some `errno`. -/
def enter (os : Os β) (p : Program β) : Program β :=
  { p with dev := { p.dev with errno := os.errno }, out := [] }

/-- One event, as far as it gets. -/
def handle (p : Program β) : Event β → Except Stop (Program β)
  | .request os command => handleElixirRequest os command (p.enter os)
  | .process os => uartProcess os (p.enter os)

def Event.label : Event β → List (Label β)
  | .request _ command => [.dispatched command]
  | .process _ => []

/-- One step of the program. -/
def step (p : Program β) (e : Event β) : Option (Program β × List (Label β)) :=
  match p.handle e with
  | .ok p' => some ({ p' with out := [] }, e.label ++ p'.out.map .sent)
  | .error _ => none

theorem step_eq_some {p p' : Program β} {e : Event β} {out : List (Label β)}
    (h : step p e = some (p', out)) :
    ∃ q, p.handle e = .ok q ∧ p' = { q with out := [] } ∧ out = e.label ++ q.out.map .sent := by
  unfold step at h
  split at h
  · next q hq =>
    simp only [Option.some.injEq, Prod.mk.injEq] at h
    exact ⟨q, hq, h.1.symm, h.2.symm⟩
  · exact absurd h (by simp)

end Program

end CircuitsUart
