import CircuitsUart.Port.Uart

/-!
# `struct uart` on Windows

`uart_comm_win.c`, as functions on the state of the program. The callbacks are those of
`circuits_uart.c`; a call of one of them is recorded with what it answers, and a system call
that sets the line with what it is given.

Whatever the operating system decides is in `Os`. A call that fails says what
`GetLastError` returns; the DCB, the event mask and the bytes that a call fills in are part
of its result.

The record of calls is written where the code makes the call, so its order is that of the code. It
stands for two things that are outside of `struct uart`: what the caller has been told, and what the
device was last given. The DCB has a field for each that the program writes, and `others` for those
it leaves as the device reports them. A block of memory is its number, which is all that matters to
a callback that frees it.

An overlapped call may be done at once or be pending. The program waits for its event either way, so
the two are told apart only where the code does.
-/

set_option autoImplicit false

namespace CircuitsUart

namespace Win

open Port (UartConfig Stop)

/-! ## Errors -/

/-- What `GetLastError` returns, as far as the program tells it apart. -/
inductive WinError
  | noError
  | fileNotFound
  | accessDenied
  | invalidHandle
  | invalidParameter
  | operationAborted
  | ioIncomplete
  | ioPending
  | cancelled
  | other (code : Nat)
  deriving DecidableEq, Repr

/-- The number of an error. -/
def WinError.code : WinError → Nat
  | .noError => 0
  | .fileNotFound => 2
  | .accessDenied => 5
  | .invalidHandle => 6
  | .invalidParameter => 87
  | .operationAborted => 995
  | .ioIncomplete => 996
  | .ioPending => 997
  | .cancelled => 1223
  | .other code => code

/-- `record_last_error`. -/
def recordLastError : WinError → Reason
  | .noError => .ok
  | .fileNotFound => .enoent
  | .invalidHandle => .ebadf
  | .accessDenied => .eacces
  | .operationAborted => .eagain
  | .cancelled => .ecanceled
  | .invalidParameter | .ioIncomplete | .ioPending | .other _ => .einval

/-- What `GetLastError` says of a call that succeeded, or failed. -/
def errorOf {α : Type} : Except WinError α → WinError
  | .ok _ => .noError
  | .error error => error

/-! ## The DCB -/

/-- `fRtsControl` and `fDtrControl`. -/
inductive Control
  | disable
  | enable
  | handshake
  | toggle
  deriving DecidableEq, Repr

/-- `DCB`; the fields that the program leaves as the device reports them are in `others`. -/
@[ext] structure Dcb where
  baudRate : BitVec 32 := 0
  fBinary : Bool := false
  fOutxCtsFlow : Bool := false
  fOutxDsrFlow : Bool := false
  fDtrControl : Control := .disable
  fOutX : Bool := false
  fInX : Bool := false
  fRtsControl : Control := .disable
  byteSize : BitVec 8 := 0
  parity : BitVec 8 := 0
  stopBits : BitVec 8 := 0
  others : List UInt8 := []
  deriving DecidableEq, Repr

/-- `to_windows_parity`. -/
def toWindowsParity : Parity → BitVec 8
  | .none | .ignore => 0
  | .odd => 1
  | .even => 2
  | .mark => 3
  | .space => 4

/-- `to_windows_stopbits`. -/
def toWindowsStopbits (stopBits : Int) : BitVec 8 := if stopBits = 2 then 2 else 0

/-- What `uart_init_dcb` makes of the DCB that the device reports. -/
def initDcb (dcb : Dcb) : Dcb :=
  { dcb with fRtsControl := .enable, fDtrControl := .disable, fBinary := true }

/-- The DCB that `uart_config_line` passes to `SetCommState`. -/
def configDcb (config : UartConfig) (dcb : Dcb) : Dcb :=
  let dcb := { dcb with
    baudRate := BitVec.ofInt 32 config.speed
    parity := toWindowsParity config.parity
    byteSize := BitVec.ofInt 8 config.dataBits
    stopBits := toWindowsStopbits config.stopBits
    fInX := false
    fOutX := false
    fOutxDsrFlow := false
    fOutxCtsFlow := false
    -- only switching away from hardware flow control touches the line
    fRtsControl := if dcb.fRtsControl = .handshake then .enable else dcb.fRtsControl }
  match config.flowControl with
  | .none => dcb
  | .software => { dcb with fInX := true, fOutX := true }
  | .hardware => { dcb with fOutxCtsFlow := true, fRtsControl := .handshake }

/-! ## The state -/

/-- The event mask's bit for a received character. -/
def EV_RXCHAR : BitVec 32 := 1

/-- `struct uart`. -/
structure Uart where
  /-- `h` is not `INVALID_HANDLE_VALUE` -/
  h : Bool := false
  activeModeEnabled : Bool := true
  readCompletionDeadline : UInt64 := 0
  desiredEventMask : BitVec 32 := 0
  readPending : Bool := false
  currentWriteTimeout : Int := 0
  /-- the block, by its number -/
  writeData : Option Nat := none
  dcb : Dcb := {}
  deriving DecidableEq, Repr

/-- What the operating system answers while a call is handled. -/
structure Os where
  createFile : List UInt8 → Except WinError Unit := fun _ => .ok ()
  getCommState : Except WinError Dcb := .ok {}
  setCommState : Except WinError Unit := .ok ()
  setCommTimeouts : Except WinError Unit := .ok ()
  setCommMask : Except WinError Unit := .ok ()
  waitCommEvent : Except WinError Unit := .error .ioPending
  writeFile : Except WinError Unit := .error .ioPending
  /-- `GetOverlappedResult` of a write, and what `GetLastError` returns after it either way -/
  writeResult : Bool × WinError := (true, .noError)
  /-- of an event, with the mask that was received -/
  eventResult : Except WinError (BitVec 32) := .error .ioIncomplete
  readFile : Except WinError (List UInt8) := .error .ioPending
  /-- of a read that was pending -/
  readResult : Except WinError (List UInt8) := .ok []
  escapeCommFunction : Except WinError Unit := .ok ()
  commBreak : Except WinError Unit := .ok ()
  getCommModemStatus : Except WinError (BitVec 32) := .ok 0
  currentTime : UInt64 := 0

/-- What `EscapeCommFunction` is asked to do. -/
inductive Escape
  | setRts
  | clrRts
  | setDtr
  | clrDtr
  deriving DecidableEq, Repr

/-- A call of a function of `uart_comm_win.c` with a callback, of that callback, or of a system
call that sets the line. A block of data goes by its number, a callback by what it answers. -/
inductive Call
  | write (data : Nat)
  | writeCompleted (data : Nat) (answer : Except Reason Unit)
  | read
  | readCompleted (answer : Except Reason (List UInt8))
  | notifyRead (notification : Except Reason (List UInt8))
  | signals (sig : Signals)
  | setCommState (dcb : Dcb) (ok : Bool)
  | escapeCommFunction (func : Escape) (ok : Bool)

/-- The C program on Windows: `uart`, `last_error`, how many blocks `handle_write` has allocated,
and the calls so far. -/
structure Program where
  uart : Uart := {}
  lastError : Reason := .ok
  blocks : Nat := 0
  calls : List Call := []

namespace Program

/-- `port->dcb` is written. -/
def cache (p : Program) (dcb : Dcb) : Program := { p with uart := { p.uart with dcb := dcb } }

def called (p : Program) (c : Call) : Program := { p with calls := p.calls ++ [c] }

/-- `record_last_error`. -/
def record (p : Program) (error : WinError) : Program :=
  { p with lastError := recordLastError error }

/-! ## The callbacks -/

/-- `handle_write_completed`, which frees the block. -/
def writeCompleted (p : Program) (ok : Bool) (data : Nat) : Program :=
  p.called (.writeCompleted data (if ok then .ok () else .error p.lastError))

/-- `handle_read_completed`; `none` is a negative result. -/
def readCompleted (p : Program) (data : Option (List UInt8)) : Program :=
  p.called (.readCompleted (data.elim (.error p.lastError) .ok))

/-- `handle_notify_read`. -/
def notifyRead (p : Program) (errorReason : WinError) (data : List UInt8) : Program :=
  p.called (.notifyRead (if errorReason = .noError then .ok data else .error p.lastError))

/-! ## Line settings -/

/-- `update_write_timeout`. -/
def updateWriteTimeout (os : Os) (timeout : Int) (p : Program) : Bool × Program :=
  match os.setCommTimeouts with
  | .error error => (false, p.record error)
  | .ok _ => (true, { p with uart := { p.uart with currentWriteTimeout := timeout } })

/-- `uart_init_dcb`. -/
def uartInitDcb (os : Os) (p : Program) : Bool × Program :=
  match os.getCommState with
  | .error error => (false, p.record error)
  | .ok dcb => (true, p.cache (initDcb dcb))

/-- `uart_config_line`. -/
def uartConfigLine (os : Os) (config : UartConfig) (p : Program) : Bool × Program :=
  -- the cached DCB is what SetCommState is given
  let p := p.cache (configDcb config p.uart.dcb)
  let p := p.called (.setCommState p.uart.dcb os.setCommState.isOk)
  match os.setCommState with
  | .error error => (false, p.record error)
  | .ok _ => (true, p)

/-- `start_async_reads`: a synchronous return and a pending one come to the same. -/
def startAsyncReads (os : Os) (p : Program) : Bool × Program :=
  match os.waitCommEvent with
  | .ok _ | .error .ioPending => (true, p)
  | .error error => (false, p.record error)

/-! ## Closing, opening and configuring -/

/-- The handle is closed. -/
def closeHandle (p : Program) : Program := { p with uart := { p.uart with h := false } }

/-- The write in progress is answered. -/
def cancelWrite (p : Program) : Program :=
  match p.uart.writeData with
  | some data =>
    let p := (p.record .cancelled).writeCompleted false data
    { p with uart := { p.uart with writeData := none } }
  | none => p

/-- The pending read is answered. -/
def cancelRead (p : Program) : Program :=
  if p.uart.readPending then
    let p := (p.record .cancelled).readCompleted none
    { p with uart := { p.uart with readPending := false } }
  else p

/-- `uart_close`. -/
def uartClose (p : Program) : Program :=
  if p.uart.h then p.cancelWrite.cancelRead.closeHandle else p

/-- `uart_close_on_error`. -/
def uartCloseOnError (p : Program) (reason : WinError) : Program :=
  let p := p.uartClose
  -- in passive mode whoever waited has had the answer
  if p.uart.activeModeEnabled then (p.record reason).notifyRead reason [] else p

/-- `\\.\COM1`, etc. -/
def windowsPortPath (name : List UInt8) : List UInt8 := [0x5c, 0x5c, 0x2e, 0x5c] ++ name

/-- `port->desired_event_mask` is written. -/
def desire (p : Program) (mask : BitVec 32) : Program :=
  { p with uart := { p.uart with desiredEventMask := mask } }

/-- `SetCommMask`, and what is desired from now on. -/
def setCommMask (os : Os) (mask : BitVec 32) (p : Program) : Except WinError Unit × Program :=
  (os.setCommMask, p.desire mask)

/-- The rest of `uart_open`, once the line is configured. -/
def listen (os : Os) (p : Program) : Bool × Program :=
  -- nobody looks at what this returns
  let p := (p.updateWriteTimeout os (-1)).2
  match p.setCommMask os EV_RXCHAR with
  | (.error error, p) => (false, (p.record error).closeHandle)
  | (.ok _, p) =>
    if p.uart.activeModeEnabled then
      match p.startAsyncReads os with
      | (false, p) => (false, p.closeHandle)
      | (true, p) => (true, p)
    else (true, p)

/-- `uart_open`. -/
def uartOpen (os : Os) (name : List UInt8) (config : UartConfig) (p : Program) : Bool × Program :=
  let p := p.uartClose
  match os.createFile (windowsPortPath name) with
  | .error error =>
    -- the mode is set before the result of `CreateFileA` is looked at
    let p := { p with
      uart := { p.uart with h := false, activeModeEnabled := config.active } }
    (false, p.record error)
  | .ok _ =>
    let p := { p with uart := { p.uart with h := true, activeModeEnabled := config.active } }
    match p.uartInitDcb os with
    | (false, p) => (false, p.closeHandle)
    | (true, p) =>
      match p.uartConfigLine os config with
      | (false, p) => (false, p.closeHandle)
      | (true, p) => p.listen os

/-- `SetCommMask`, which may not fail. -/
def requireCommMask (os : Os) (mask : BitVec 32) (caller : String) (p : Program) :
    Except Stop Program :=
  match p.setCommMask os mask with
  | (.error e, p) =>
    let mask := p.uart.desiredEventMask.toHex
    .error (.errx s!"{caller}: SetCommMask failure unexpected: 0x{mask}, Error={e.code}")
  | (.ok _, p) => .ok p

/-- The change of mode in `uart_configure`, on an open port. -/
def changeMode (os : Os) (active : Bool) (p : Program) : Except Stop (Bool × Program) :=
  if p.uart.readPending then .error (.errx "Elixir is supposed to queue read ops")
  else if active then do
    let p ← p.requireCommMask os (p.uart.desiredEventMask ||| EV_RXCHAR) "uart_configure"
    match p.startAsyncReads os with
    | (false, p) => return (false, p.closeHandle)
    | (true, p) => return (true, p)
  else do
    let p ← p.requireCommMask os (p.uart.desiredEventMask &&& ~~~EV_RXCHAR) "uart_configure"
    return (true, p)

/-- `uart_configure`. -/
def uartConfigure (os : Os) (config : UartConfig) (p : Program) : Except Stop (Bool × Program) :=
  let changed := config.active ≠ p.uart.activeModeEnabled
  -- set for a closed port too
  let p := { p with uart := { p.uart with activeModeEnabled := config.active } }
  if p.uart.h then do
    match ← (if changed then p.changeMode os config.active else .ok (true, p)) with
    | (false, p) => return (false, p)
    | (true, p) => return p.uartConfigLine os config
  else .ok (true, p)

/-! ## Writing and reading -/

/-- `WriteFile`: an immediate success is a write that is pending. -/
def writeFile (os : Os) (data : Nat) (p : Program) : Program :=
  let p := { p with uart := { p.uart with writeData := some data } }
  match os.writeFile with
  | .ok _ | .error .ioPending => p
  | .error error => (p.record error).writeCompleted false data

/-- `uart_write`. -/
def uartWrite (os : Os) (data : Nat) (timeout : Int) (p : Program) : Except Stop Program :=
  if p.uart.writeData.isSome then .error (.errx "Implement write queuing in Elixir!")
  else if p.uart.currentWriteTimeout ≠ timeout then
    match p.updateWriteTimeout os timeout with
    | (false, p) => .ok (p.writeCompleted false data)
    | (true, p) => .ok (p.writeFile os data)
  else .ok (p.writeFile os data)

/-- The end of `uart_read`: the read waits for an event. -/
def awaitEvent (os : Os) (p : Program) : Program :=
  match p.startAsyncReads os with
  | (false, p) => { p with uart := { p.uart with readPending := false } }.readCompleted none
  | (true, p) => p

/-- `uart_read`. -/
def uartRead (os : Os) (timeout : Int) (p : Program) : Except Stop Program :=
  if p.uart.activeModeEnabled then .ok ((p.record .invalidParameter).readCompleted none)
  else if p.uart.readPending then .error (.errx "Implement read queuing in Elixir")
  else do
    let p := { p with uart := { p.uart with
      readPending := true
      readCompletionDeadline := CircuitsUart.Program.deadline os.currentTime timeout } }
    if p.uart.desiredEventMask &&& EV_RXCHAR = 0 then
      let p ← p.requireCommMask os (p.uart.desiredEventMask ||| EV_RXCHAR) "uart_read"
      return p.awaitEvent os
    else return p.awaitEvent os

/-! ## The other calls -/

/-- `uart_drain`, which waits for nothing. -/
def uartDrain (p : Program) : Except Stop Program :=
  if p.uart.writeData.isSome then .error (.errx "Elixir is supposed to queue write operations")
  else .ok p

/-- `uart_flush`. Nobody looks at what `PurgeComm` returns. -/
def uartFlush (_direction : Direction) (p : Program) : Except Stop Program :=
  if p.uart.readPending then .error (.errx "Elixir is supposed to queue read operations")
  else .ok p

/-- A system call, and `record_errno` if it fails. -/
def attempt {α : Type} (result : Except WinError α) (p : Program) : Bool × Program :=
  match result with
  | .error error => (false, p.record error)
  | .ok _ => (true, p)

/-- What a line is driven to. -/
def Control.ofBool (val : Bool) : Control := if val then .enable else .disable

/-- `EscapeCommFunction`, and `record_errno` if it fails. -/
def escape (os : Os) (func : Escape) (p : Program) : Bool × Program :=
  attempt os.escapeCommFunction (p.called (.escapeCommFunction func os.escapeCommFunction.isOk))

/-- `uart_set_rts`. -/
def uartSetRts (os : Os) (val : Bool) (p : Program) : Bool × Program :=
  escape os (if val then .setRts else .clrRts)
    (p.cache { p.uart.dcb with fRtsControl := Control.ofBool val })

/-- `uart_set_dtr`. -/
def uartSetDtr (os : Os) (val : Bool) (p : Program) : Bool × Program :=
  escape os (if val then .setDtr else .clrDtr)
    (p.cache { p.uart.dcb with fDtrControl := Control.ofBool val })

/-- `uart_set_break`. -/
def uartSetBreak (os : Os) (_val : Bool) (p : Program) : Bool × Program := attempt os.commBreak p

/-- The `MS_*` bits of each signal; RTS and DTR are the cached ones. -/
def signalsOf (status : BitVec 32) (dcb : Dcb) : Signals where
  dsr := status &&& 0x20#32 ≠ 0
  dtr := dcb.fDtrControl = .enable
  rts := dcb.fRtsControl = .enable
  st := false
  sr := false
  cts := status &&& 0x10#32 ≠ 0
  cd := status &&& 0x80#32 ≠ 0
  rng := status &&& 0x40#32 ≠ 0

/-- `uart_get_signals`. -/
def uartGetSignals (os : Os) (p : Program) : Bool × Program :=
  match os.getCommModemStatus with
  | .error error => (false, p.record error)
  | .ok status => (true, p.called (.signals (signalsOf status p.uart.dcb)))

/-! ## What the main loop calls -/

/-- The write half of `uart_process_handle`. -/
def processWrite (os : Os) (p : Program) : Program :=
  match p.uart.writeData with
  | none => p
  | some data =>
    let (rc, lastError) := os.writeResult
    if rc ∨ lastError ≠ .ioIncomplete then
      let p := p.record lastError
      { p with uart := { p.uart with writeData := none } }.writeCompleted rc data
    else p

/-- What was read is reported. -/
def reportRead (os : Os) (result : Except WinError (List UInt8)) (p : Program) : Program :=
  let p := p.record (errorOf result)
  if p.uart.activeModeEnabled then
    match result with
    | .ok data => ((p.notifyRead .noError data).startAsyncReads os).2
    | .error error => p.notifyRead error []
  else if p.uart.readPending then
    { p with uart := { p.uart with readPending := false } }.readCompleted result.toOption
  else p

/-- The read half of `uart_process_handle`. -/
def processEvent (os : Os) (p : Program) : Program :=
  if p.uart.readPending ∨ p.uart.activeModeEnabled then
    match os.eventResult with
    | .error .ioIncomplete => p
    | .error error => p.uartCloseOnError error
    | .ok received =>
      if received &&& EV_RXCHAR = 0 then
        if p.uart.activeModeEnabled then (p.startAsyncReads os).2 else p
      else
        match os.readFile with
        | .ok data => p.reportRead os (.ok data)
        | .error .ioPending => p.reportRead os os.readResult
        | .error error => p.uartCloseOnError error
  else p

/-- The event that was signalled. -/
inductive Handle
  | write
  | events
  deriving DecidableEq, Repr

/-- `uart_process_handle`. -/
def uartProcessHandle (os : Os) (event : Handle) (p : Program) : Program :=
  match event with
  | .write => p.processWrite os
  | .events => p.processEvent os

/-- `uart_process_timeout`. -/
def uartProcessTimeout (os : Os) (p : Program) : Except Stop Program :=
  if p.uart.readPending ∧
      CircuitsUart.Program.late p.uart.readCompletionDeadline os.currentTime then do
    let p ← p.requireCommMask os (p.uart.desiredEventMask &&& ~~~EV_RXCHAR) "uart_process_timeout"
    return { p with uart := { p.uart with readPending := false } }.readCompleted (some [])
  else .ok p

/-! ## One call after the other -/

/-- A call that a request comes to; `write` stands for `handle_write`, which allocates the block. -/
inductive Request
  | «open» (name : List UInt8) (config : UartConfig)
  | configure (config : UartConfig)
  | close
  | write (timeout : Int)
  | read (timeout : Int)
  | drain
  | flush (direction : Direction)
  | setRts (val : Bool)
  | setDtr (val : Bool)
  | setBreak (val : Bool)
  | getSignals

/-- A block for the data, and `uart_write`. -/
def startWrite (os : Os) (timeout : Int) (p : Program) : Except Stop Program :=
  uartWrite os p.blocks timeout ({ p with blocks := p.blocks + 1 }.called (.write p.blocks))

/-- `uart_read`. -/
def startRead (os : Os) (timeout : Int) (p : Program) : Except Stop Program :=
  uartRead os timeout (p.called .read)

/-- The result that says whether a call failed. A `void` function does not. -/
def request (os : Os) (p : Program) : Request → Except Stop (Bool × Program)
  | .open name config => .ok (p.uartOpen os name config)
  | .configure config => p.uartConfigure os config
  | .close => .ok (true, p.uartClose)
  | .write timeout => (p.startWrite os timeout).map (true, ·)
  | .read timeout => (p.startRead os timeout).map (true, ·)
  | .drain => p.uartDrain.map (true, ·)
  | .flush direction => (p.uartFlush direction).map (true, ·)
  | .setRts val => .ok (p.uartSetRts os val)
  | .setDtr val => .ok (p.uartSetDtr os val)
  | .setBreak val => .ok (p.uartSetBreak os val)
  | .getSignals => .ok (p.uartGetSignals os)

/-- What the main loop does next. -/
inductive Event
  | request (os : Os) (request : Request)
  | handle (os : Os) (event : Handle)
  | timeout (os : Os)

/-- One event, as far as it gets. -/
def handle (p : Program) : Event → Except Stop (Bool × Program)
  | .request os request => p.request os request
  | .handle os event => .ok (true, p.uartProcessHandle os event)
  | .timeout os => (p.uartProcessTimeout os).map (true, ·)

/-- One step of the program; its label is what the function returns. -/
def step (p : Program) (e : Event) : Option (Program × List Bool) :=
  match p.handle e with
  | .ok (ok, q) => some (q, [ok])
  | .error _ => none

theorem step_eq_some {p q : Program} {e : Event} {out : List Bool}
    (h : step p e = some (q, out)) : ∃ ok, p.handle e = .ok (ok, q) ∧ out = [ok] := by
  unfold step at h
  split at h
  · next ok q' ran =>
    simp only [Option.some.injEq, Prod.mk.injEq] at h
    obtain ⟨rfl, rfl⟩ := h
    exact ⟨ok, ran, rfl⟩
  · exact absurd h (by simp)

end Program

end Win

end CircuitsUart
