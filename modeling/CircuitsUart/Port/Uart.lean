import CircuitsUart.Port.Device

/-!
# `struct uart` and the functions on it

`uart_comm_unix.c`, as functions on the state of the whole program: the callbacks
`uart_init` is given are those of `circuits_uart.c`, so a function here may send messages.

Whatever the operating system decides is in `Os`: whether a call fails, what `open`,
`read` and `write` return, and the clock. `read` and `write` are retried while they return
`EINTR`, so they are given a list of results; a list that ends before something else came
is a program that never returns (`Stop.blocked`).

`Os` belongs to one event. The next event has another one, so no theorem assumes that a device
answers twice in the same way, and "whatever the system does" is a quantifier over lists of
events.

What a device **is** (its settings, the flags it lets be set) is state, in `Dev`; what it **does**
is in `Os`. An open may find any device: `opened` gives it with the descriptor.
-/

set_option autoImplicit false

namespace CircuitsUart

namespace Port

/-- `struct uart`. -/
structure Uart where
  fd : Option Nat := none
  activeModeEnabled : Bool := true
  writeData : Option (List UInt8) := none
  writeOffset : Nat := 0
  writeCompletionDeadline : UInt64 := 0
  readPending : Bool := false
  readCompletionDeadline : UInt64 := 0
  deriving DecidableEq, Repr

/-- What the operating system answers while an event is handled. -/
structure Os (β : Type) where
  /-- `errno`, as whatever ran before left it -/
  errno : Errno := .zero
  /-- whether there is memory for the path -/
  pathOk : Bool := true
  opened : List UInt8 → Except Errno (Nat × Tty) := fun _ => .error .enoent
  fails : Fails := fun _ => none
  reads : List (Except Errno (List β)) := []
  writes : List (Except Errno Nat) := []
  writeClock : UInt64 := 0
  readClock : UInt64 := 0
  modemStatus : BitVec 32 := 0

/-- A message on the program's standard output. -/
inductive Out (β : Type)
  | response (r : Response β)
  | notif (n : Notification β)

/-- Why a function did not return. -/
inductive Stop
  | errx (message : String)
  | blocked
  deriving DecidableEq, Repr

end Port

open Port

/-- The C program: `uart`, `current_config`, `last_error`, the device and what has been
written to standard output. -/
structure Program (β : Type) where
  uart : Uart := {}
  currentConfig : UartConfig := uartDefaultConfig
  lastError : Reason := .ok
  dev : Dev := {}
  out : List (Out β) := []

namespace Program

variable {β : Type}

def send (p : Program β) (o : Out β) : Program β := { p with out := p.out ++ [o] }

def sendOkResponse (p : Program β) : Program β := p.send (.response .ok)

def sendErrorResponse (p : Program β) (reason : Reason) : Program β :=
  p.send (.response (.error reason))

/-- `record_last_error`. -/
def record (p : Program β) (errno : Errno) : Program β :=
  { p with lastError := recordLastError errno }

def recordErrno (p : Program β) : Program β := p.record p.dev.errno

/-! ## The callbacks -/

/-- `handle_write_completed`. -/
def handleWriteCompleted (p : Program β) (ok : Bool) : Program β :=
  if ok then p.sendOkResponse else p.sendErrorResponse p.lastError

/-- `handle_read_completed`; `none` is a negative result. -/
def handleReadCompleted (p : Program β) (data : Option (List β)) : Program β :=
  match data with
  | some data => p.send (.response (.data data))
  | none => p.sendErrorResponse p.lastError

/-- `handle_notify_read`. -/
def handleNotifyRead (p : Program β) (errorReason : Errno) (data : List β) : Program β :=
  if errorReason = .zero then p.send (.notif (.data data)) else p.send (.notif (.error p.lastError))

/-! ## System calls -/

/-- `do .. while (.. < 0 && errno == EINTR)`: the result, and the `errno` left. -/
def retry {α : Type} (errno : Errno) : List (Except Errno α) → Option (Except Errno α × Errno)
  | [] => none
  | .error .eintr :: rest => retry .eintr rest
  | .error e :: _ => some (.error e, e)
  | .ok a :: _ => some (.ok a, errno)

/-- `read` into the read buffer; no bytes is the end of the file. -/
def read (os : Os β) (p : Program β) : Except Stop (Except Errno (List β) × Program β) :=
  match p.uart.fd with
  | none => .ok (.error .ebadf, { p with dev := { p.dev with errno := .ebadf } })
  | some _ =>
    match retry p.dev.errno os.reads with
    | none => .error .blocked
    | some (result, errno) => .ok (result, { p with dev := { p.dev with errno := errno } })

/-- `write` of `len` bytes, which writes no more than that. -/
def write (os : Os β) (len : Nat) (p : Program β) : Except Stop (Except Errno Nat × Program β) :=
  match p.uart.fd with
  | none => .ok (.error .ebadf, { p with dev := { p.dev with errno := .ebadf } })
  | some _ =>
    match retry p.dev.errno os.writes with
    | none => .error .blocked
    | some (result, errno) =>
      .ok (result.map (min len), { p with dev := { p.dev with errno := errno } })

/-- `ONE_YEAR_MILLIS`. -/
def oneYearMillis : UInt64 := 31536000000

/-- The deadline of an operation that may take `timeout`. -/
def deadline (clock : UInt64) (timeout : Int) : UInt64 :=
  clock + if timeout < 0 then oneYearMillis else UInt64.ofNat timeout.toNat

/-- The deadline has come, or has gone and the subtraction wraps. -/
def late (deadline clock : UInt64) : Bool :=
  let timeToWait := deadline - clock
  timeToWait = 0 ∨ timeToWait > oneYearMillis

/-! ## Opening, configuring and closing -/

/-- `name_to_device_file`: a path is left as it is. -/
def nameToDeviceFile (os : Os β) (name : List UInt8) : Option (List UInt8) :=
  if os.pathOk then
    -- '/' and '.'
    if name.head? = some 0x2f ∨ name.head? = some 0x2e then some name
    else some ("/dev/".toUTF8.toList ++ name)
  else none

/-- `uart_open`. -/
def uartOpen (os : Os β) (name : List UInt8) (config : UartConfig) (p : Program β) :
    Bool × Program β :=
  match nameToDeviceFile os name with
  | none => (false, p)
  | some path =>
    match os.opened path with
    | .error errno =>
      -- the mode is set before the result of `open` is looked at
      let p := { p with
        uart := { p.uart with fd := none, activeModeEnabled := config.active }
        dev := { p.dev with errno := errno } }
      (false, p.recordErrno)
    | .ok (fd, tty) =>
      let p := { p with
        uart := { p.uart with fd := some fd, activeModeEnabled := config.active }
        dev := { p.dev with tty := tty } }
      match openDevice os.fails config p.dev with
      | (true, dev) => (true, { p with dev := dev })
      | (false, dev) =>
        let p := recordErrno { p with dev := dev }
        (false, { p with uart := { p.uart with fd := none } })

/-- `uart_is_open`. -/
def uartIsOpen (p : Program β) : Bool := p.uart.fd.isSome

/-- `uart_configure`. -/
def uartConfigure (os : Os β) (config : UartConfig) (p : Program β) :
    Except Stop (Bool × Program β) :=
  if config.active ≠ p.uart.activeModeEnabled ∧ p.uart.readPending then
    .error (.errx "Elixir is supposed to queue read ops")
  else
    -- set for a closed port too, and kept if the device refuses the settings
    let p := { p with uart := { p.uart with activeModeEnabled := config.active } }
    match p.uart.fd with
    | none => .ok (true, p)
    | some _ =>
      match configureDevice os.fails config p.dev with
      | (true, dev) => .ok (true, { p with dev := dev })
      | (false, dev) => .ok (false, recordErrno { p with dev := dev })

/-- `uart_get_rs485_config`, whose result nobody looks at. -/
def uartGetRs485Config (os : Os β) (config : UartConfig) (p : Program β) : UartConfig × Program β :=
  let failure := match p.uart.fd with
    | none => some .ebadf
    | some _ => os.fails .rs485Report
  match failure with
  | some errno =>
    let p := { p with dev := { p.dev with errno := errno } }
    (config, if config.rs485UserConfigured then p.recordErrno else p)
  | none => (reportRs485 config p.dev.tty.rs485, p)

/-- The write in progress is answered. -/
def cancelWrite (p : Program β) : Program β :=
  if p.uart.writeData.isSome then
    let p := (p.record .ecanceled).handleWriteCompleted false
    { p with uart := { p.uart with writeData := none } }
  else p

/-- The pending read is answered. -/
def cancelRead (p : Program β) : Program β :=
  if p.uart.readPending then
    let p := (p.record .ecanceled).handleReadCompleted none
    { p with uart := { p.uart with readPending := false } }
  else p

/-- `uart_close`. -/
def uartClose (p : Program β) : Program β :=
  let p := p.cancelWrite.cancelRead
  { p with uart := { p.uart with fd := none } }

/-- `uart_close_on_error`. -/
def uartCloseOnError (p : Program β) (reason : Errno) : Program β :=
  let p := p.uartClose
  -- in passive mode whoever waited has had the answer
  if p.uart.activeModeEnabled then (p.record reason).handleNotifyRead reason [] else p

/-! ## Writing -/

/-- The rest of a write is left for later. -/
def writeLater (os : Os β) (data : List UInt8) (offset : Nat) (timeout : Int) (p : Program β) :
    Program β :=
  { p with uart := { p.uart with
      writeData := some data
      writeOffset := offset
      writeCompletionDeadline := deadline os.writeClock timeout } }

/-- `uart_write`. -/
def uartWrite (os : Os β) (data : List UInt8) (timeout : Int) (p : Program β) :
    Except Stop (Program β) :=
  if p.uart.writeData.isSome then .error (.errx "Implement write queuing in Elixir!")
  else do
    let (written, p) ← p.write os data.length
    match written with
    | .error errno =>
      if errno = .eagain ∧ timeout ≠ 0 then return p.writeLater os data 0 timeout
      else return (p.recordErrno.handleWriteCompleted false).uartCloseOnError errno
    | .ok written =>
      if written ≠ data.length then
        if timeout ≠ 0 then return p.writeLater os data written timeout
        else return (p.record .eagain).handleWriteCompleted false
      else return p.handleWriteCompleted true

/-- The write that is under way is no more, and its callback runs. -/
def writeDone (p : Program β) (ok : Bool) : Program β :=
  handleWriteCompleted { p with uart := { p.uart with writeData := none } } ok

/-- The end of `continue_in_progress_write`: the write is still outstanding. -/
def checkWriteDeadline (os : Os β) (p : Program β) : Program β :=
  if late p.uart.writeCompletionDeadline os.writeClock then (p.record .eagain).writeDone false else p

/-- `continue_in_progress_write`. -/
def continueInProgressWrite (os : Os β) (data : List UInt8) (p : Program β) :
    Except Stop (Program β) := do
  let toWrite := data.length - p.uart.writeOffset
  let (written, p) ← p.write os toWrite
  match written with
  | .ok written =>
    if written = toWrite then return p.writeDone true
    else
      let p := { p with uart := { p.uart with writeOffset := p.uart.writeOffset + written } }
      return p.checkWriteDeadline os
  | .error errno =>
    if errno ≠ .eagain then return (p.recordErrno.writeDone false).uartCloseOnError errno
    else return p.checkWriteDeadline os

/-! ## Reading -/

/-- Nothing was read: that is the answer, or the read waits. -/
def readLater (os : Os β) (timeout : Int) (p : Program β) : Program β :=
  if timeout = 0 then p.handleReadCompleted (some [])
  else { p with uart := { p.uart with
      readPending := true
      readCompletionDeadline := deadline os.readClock timeout } }

/-- `uart_read`. -/
def uartRead (os : Os β) (timeout : Int) (p : Program β) : Except Stop (Program β) :=
  if p.uart.activeModeEnabled then .ok ((p.record .einval).handleReadCompleted none)
  else if p.uart.readPending then .error (.errx "Implement read queuing in Elixir")
  else do
    let (bytesRead, p) ← p.read os
    match bytesRead with
    | .ok (b :: bs) => return p.handleReadCompleted (some (b :: bs))
    | .ok [] => return readLater os timeout p
    | .error errno =>
      if errno = .eagain then return readLater os timeout p
      else return (p.recordErrno.handleReadCompleted none).uartCloseOnError errno

/-- The read that waits is no more, and its callback runs. -/
def readDone (p : Program β) (data : Option (List β)) : Program β :=
  handleReadCompleted { p with uart := { p.uart with readPending := false } } data

/-- The end of the file, or an error. The answer to a pending read gives `errno`, whatever
that is at the end of the file. -/
def readFailed (p : Program β) (reason : Errno) : Program β :=
  let p := if p.uart.readPending then p.recordErrno.readDone none else p
  p.uartCloseOnError reason

/-- `process_read`. -/
def processRead (os : Os β) (p : Program β) : Except Stop (Program β) := do
  let (bytesRead, p) ← p.read os
  match bytesRead with
  | .ok (b :: bs) =>
    if p.uart.activeModeEnabled then return p.handleNotifyRead .zero (b :: bs)
    else return p.readDone (some (b :: bs))
  | .ok [] => return p.readFailed .eio
  | .error errno =>
    if errno = .eagain then
      if p.uart.readPending ∧ late p.uart.readCompletionDeadline os.readClock then
        return p.readDone (some [])
      else return p
    else return p.readFailed errno

/-- The write half of `uart_process`. -/
def processWrite (os : Os β) (p : Program β) : Except Stop (Program β) :=
  match p.uart.writeData with
  | some data => p.continueInProgressWrite os data
  | none => .ok p

/-- `uart_process`. -/
def uartProcess (os : Os β) (p : Program β) : Except Stop (Program β) :=
  match p.uart.fd with
  | none => .ok p
  | some _ => do
    let p ← p.processWrite os
    -- a failed write may have closed the port; the read then finds no descriptor
    if p.uart.activeModeEnabled ∨ p.uart.readPending then p.processRead os else return p

/-! ## The other calls -/

/-- A call on the descriptor, and `record_errno` if it fails. -/
def call (os : Os β) (site : CallSite) (p : Program β) : Bool × Program β :=
  match os.fails site with
  | some errno => (false, recordErrno { p with dev := { p.dev with errno := errno } })
  | none => (true, p)

/-- `uart_drain`. -/
def uartDrain (os : Os β) (p : Program β) : Except Stop (Bool × Program β) :=
  if p.uart.writeData.isSome then .error (.errx "Elixir is supposed to queue write operations")
  else .ok (p.call os .tcdrain)

/-- `uart_flush`. -/
def uartFlush (os : Os β) (_direction : Direction) (p : Program β) :
    Except Stop (Bool × Program β) :=
  if p.uart.readPending then .error (.errx "Elixir is supposed to queue read operations")
  else .ok (p.call os .tcflush)

/-- `uart_set_rts`. -/
def uartSetRts (os : Os β) (_val : Bool) (p : Program β) : Bool × Program β := p.call os .modemSet

/-- `uart_set_dtr`. -/
def uartSetDtr (os : Os β) (_val : Bool) (p : Program β) : Bool × Program β := p.call os .modemSet

/-- `uart_set_break`. -/
def uartSetBreak (os : Os β) (_val : Bool) (p : Program β) : Bool × Program β := p.call os .breakSet

/-- The `TIOCM_*` bits of each signal. -/
def signalsOf (status : BitVec 32) : Signals where
  dsr := status &&& 0x101#32 ≠ 0
  dtr := status &&& 0x002#32 ≠ 0
  rts := status &&& 0x004#32 ≠ 0
  st := status &&& 0x008#32 ≠ 0
  sr := status &&& 0x010#32 ≠ 0
  cts := status &&& 0x020#32 ≠ 0
  cd := status &&& 0x040#32 ≠ 0
  rng := status &&& 0x080#32 ≠ 0

/-- `uart_get_signals`. -/
def uartGetSignals (os : Os β) (p : Program β) : Option Signals × Program β :=
  match p.call os .modemGet with
  | (true, p) => (some (signalsOf os.modemStatus), p)
  | (false, p) => (none, p)

end Program

end CircuitsUart
