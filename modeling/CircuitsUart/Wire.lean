import CircuitsUart.Framing.Framer

/-!
# What travels between the two processes

The options of `Circuits.UART.open/3`, the commands `call_port/4` sends to the C program,
and what the C program sends back: one response (`?r`) for a command, and notifications
(`?n`) on its own account.

Commands are typed, the way the API's typespecs type them. Options are also given as the
external terms the C program decodes (`UartOption.encode`), because the two processes read
an option list by different rules: the first occurrence of a key wins in `Keyword.get/3`,
the last one in `parse_option_list`.

## What is typed here and what is bytes elsewhere

Both processes are modelled on these types: the GenServer sends a `Command`, the C program
handles one, and neither half says how a command looks in memory. That is a layer of its own
(`Port.External` and what is built on it), which shows that nothing is lost by leaving it out
here: whatever bytes the VM makes of a command, the C program reads the command.

Received data has elements of any type `β`. The program never looks at them but in
`Framing.Line`, which compares them with the separator; so the theorems about order and loss
may number the bytes, and a byte that is numbered cannot be taken for another one.
-/

set_option autoImplicit false

namespace CircuitsUart

/-- The bytes of a string literal. -/
def ascii (s : String) : List UInt8 := s.toList.map fun c => c.toNat.toUInt8

/-- The name of a device. -/
def ttyS0 : List UInt8 := ascii "ttyS0"

/-! ## Options -/

/-- A term as the C program sees it after `ei_decode_*`. -/
inductive Term
  | atom (name : String)
  | int (value : Int)
  | binary (bytes : List UInt8)
  | tuple (elems : List Term)
  | list (elems : List Term)

/-- `enum uart_parity`, and the values of `:parity`. -/
inductive Parity
  | none
  | even
  | odd
  | space
  | mark
  | ignore
  deriving DecidableEq, Repr

/-- `enum uart_flow_control`, and the values of `:flow_control`. -/
inductive FlowControl
  | none
  | hardware
  | software
  deriving DecidableEq, Repr

/-- The values of `:id`. -/
inductive IdMode
  | name
  | pid
  deriving DecidableEq, Repr

def Parity.atom : Parity → String
  | .none => "none"
  | .even => "even"
  | .odd => "odd"
  | .space => "space"
  | .mark => "mark"
  | .ignore => "ignore"

def FlowControl.atom : FlowControl → String
  | .none => "none"
  | .hardware => "hardware"
  | .software => "software"

def IdMode.atom : IdMode → String
  | .name => "name"
  | .pid => "pid"

/-- `@type uart_option`. -/
inductive UartOption
  | active (v : Bool)
  | speed (v : Nat)
  | dataBits (v : Nat)
  | stopBits (v : Nat)
  | parity (v : Parity)
  | flowControl (v : FlowControl)
  | framing (v : FramingOpt)
  | rxFramingTimeout (v : Int)
  | id (v : IdMode)
  | rs485Enabled (v : Bool)
  | rs485RtsOnSend (v : Bool)
  | rs485RtsAfterSend (v : Bool)
  | rs485RxDuringTx (v : Bool)
  | rs485TerminateBus (v : Bool)
  | rs485DelayRtsBeforeSend (v : Nat)
  | rs485DelayRtsAfterSend (v : Nat)
  deriving DecidableEq, Repr

def Term.bool (v : Bool) : Term := .atom (if v then "true" else "false")

/-- A keyword pair. -/
def Term.pair (key : String) (value : Term) : Term := .tuple [.atom key, value]

def FramingModule.atom : FramingModule → String
  | .none => "Elixir.Circuits.UART.Framing.None"
  | .fourByte => "Elixir.Circuits.UART.Framing.FourByte"
  | .line => "Elixir.Circuits.UART.Framing.Line"

def Line.Args.encode (args : Line.Args) : Term :=
  .list ((args.maxLength.toList.map fun n => Term.pair "max_length" (.int n)) ++
    (args.separator.toList.map fun s => Term.pair "separator" (.binary s)))

def FramingOpt.encode : FramingOpt → Term
  | .module m => .atom m.atom
  | .withArgs m args => .tuple [.atom m.atom, args.encode]

/-- `:erlang.term_to_binary` on one option, as far as the C program looks. -/
def UartOption.encode : UartOption → Term
  | .active v => .pair "active" (.bool v)
  | .speed v => .pair "speed" (.int v)
  | .dataBits v => .pair "data_bits" (.int v)
  | .stopBits v => .pair "stop_bits" (.int v)
  | .parity v => .pair "parity" (.atom v.atom)
  | .flowControl v => .pair "flow_control" (.atom v.atom)
  | .framing v => .pair "framing" v.encode
  | .rxFramingTimeout v => .pair "rx_framing_timeout" (.int v)
  | .id v => .pair "id" (.atom v.atom)
  | .rs485Enabled v => .pair "rs485_enabled" (.bool v)
  | .rs485RtsOnSend v => .pair "rs485_rts_on_send" (.bool v)
  | .rs485RtsAfterSend v => .pair "rs485_rts_after_send" (.bool v)
  | .rs485RxDuringTx v => .pair "rs485_rx_during_tx" (.bool v)
  | .rs485TerminateBus v => .pair "rs485_terminate_bus" (.bool v)
  | .rs485DelayRtsBeforeSend v => .pair "rs485_delay_rts_before_send" (.int v)
  | .rs485DelayRtsAfterSend v => .pair "rs485_delay_rts_after_send" (.int v)

/-- `Keyword.get/3`: the first entry with the key. -/
def keywordGet {α : Type} (value : UartOption → Option α) (opts : List UartOption)
    (default : α) : α :=
  (opts.findSome? value).getD default

/-! ### The keys -/

def UartOption.active? : UartOption → Option Bool
  | .active v => some v
  | _ => Option.none

def UartOption.speed? : UartOption → Option Nat
  | .speed v => some v
  | _ => Option.none

def UartOption.framing? : UartOption → Option FramingOpt
  | .framing v => some v
  | _ => Option.none

def UartOption.rxFramingTimeout? : UartOption → Option Int
  | .rxFramingTimeout v => some v
  | _ => Option.none

def UartOption.id? : UartOption → Option IdMode
  | .id v => some v
  | _ => Option.none

/-! ## Commands, responses and notifications -/

/-- `{command, arguments}` as `call_port/4` sends it. -/
inductive Command
  | open (name : List UInt8) (opts : List UartOption)
  | configure (opts : List UartOption)
  | configuration
  | close
  | write (data : List UInt8) (timeout : Nat)
  | read (timeout : Nat)
  | drain
  | flush (direction : Direction)
  | signals
  | setDtr (value : Bool)
  | setRts (value : Bool)
  | setBreak (value : Bool)
  deriving DecidableEq, Repr

/-- The atoms `record_last_error` makes of an errno. -/
inductive Reason
  | ok
  | enoent
  | ebadf
  | eperm
  | eacces
  | eagain
  | ecanceled
  | eio
  | eintr
  | enotty
  | einval
  deriving DecidableEq, Repr

/-- `struct uart_signals`. -/
structure Signals where
  dsr : Bool
  dtr : Bool
  rts : Bool
  st : Bool
  sr : Bool
  cts : Bool
  cd : Bool
  rng : Bool
  deriving DecidableEq, Repr

/-- An `'r'` message: `:ok`, `{:error, reason}`, `{:ok, binary}`, the option list of
`handle_configuration` or `{:ok, map}`. -/
inductive Response (β : Type)
  | ok
  | error (reason : Reason)
  | data (bytes : List β)
  | options (opts : List Term)
  | signals (sig : Signals)

/-- An `'n'` message: `{:notif, binary}` or `{:notif, {:error, reason}}`. -/
inductive Notification (β : Type)
  | data (bytes : List β)
  | error (reason : Reason)
  deriving DecidableEq, Repr

/-- The received bytes in a notification. -/
def Notification.bytes {β : Type} : Notification β → List β
  | .data bytes => bytes
  | .error _ => []

/-- The received bytes in a response. -/
def Response.bytes {β : Type} : Response β → List β
  | .data bytes => bytes
  | _ => []

end CircuitsUart
