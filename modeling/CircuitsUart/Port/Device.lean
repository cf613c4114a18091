import CircuitsUart.Port.LineSettings

/-!
# The other settings of a port

Flow control, custom speeds and RS485, and the two sequences in which `uart_open` and
`uart_configure` apply a configuration to a device.

The sequences are `openDevice` and `configureDevice`, on a device that is there. The first one
also locks the device and flushes it, and sets a custom speed, which the second one does not. Each
is a chain under `andThen`, as the source leaves its functions at the first call that fails; what
had been set by then stays set.

Whether a step fails is asked of `Fails` at the place of the call, not of the settings: any call
may fail on any device. The one failure that the settings decide is reading back something else
than was set.
-/

set_option autoImplicit false

namespace CircuitsUart.Port

open Lib

/-! ## Flow control -/

/-- The settings `uart_config_flowcontrol` passes to `tcsetattr`. -/
def flowOptions (flowControl : FlowControl) (options : Termios) : Termios :=
  match flowControl with
  | .none =>
    { options with
      cflag := options.cflag &&& ~~~CRTSCTS
      iflag := options.iflag &&& ~~~(IXON ||| IXOFF ||| IXANY) }
  | .hardware =>
    { options with
      cflag := options.cflag ||| CRTSCTS
      iflag := options.iflag &&& ~~~(IXON ||| IXOFF ||| IXANY) }
  | .software =>
    { options with
      cflag := options.cflag &&& ~~~CRTSCTS
      iflag := options.iflag ||| (IXON ||| IXOFF ||| IXANY) }

/-- `uart_config_flowcontrol`. -/
def uartConfigFlowcontrol (fails : Fails) (config : UartConfig) (d : Dev) : Bool × Dev :=
  d.attempt fails .flowGet fun d =>
    let options := flowOptions config.flowControl d.tty.termios
    d.attempt fails .flowSet fun d => (true, { d with tty := d.tty.tcsetattr options })

/-! ## Custom speeds -/

/-- `is_custom_speed`. -/
def isCustomSpeed (speed : Int) : Bool := (toBaudrateConstant speed).isNone

/-- The settings `set_custom_speed` passes to `TCSETS2`. -/
def speedOptions (speed : Int) (serinfo : Termios) : Termios :=
  { serinfo with
    cflag := (serinfo.cflag &&& ~~~CBAUD) ||| BOTHER
    ispeed := BitVec.ofInt 32 speed
    ospeed := BitVec.ofInt 32 speed }

/-- `set_custom_speed`. -/
def setCustomSpeed (fails : Fails) (speed : Int) (d : Dev) : Bool × Dev :=
  d.attempt fails .speedGet fun d =>
    let serinfo := speedOptions speed d.tty.termios
    d.attempt fails .speedSet fun d => (true, { d with tty := d.tty.tcsets2 serinfo })

/-! ## RS485 -/

/-- `update_flags`, on a tristate boolean. -/
def updateFlags (flags flagBit : Flags) (tristate : Int) : Flags :=
  if tristate = 0 then flags &&& ~~~flagBit
  else if 0 < tristate then flags ||| flagBit
  else flags

/-- The settings `uart_config_rs485` passes to `TIOCSRS485`. -/
def rs485Options (config : UartConfig) (rs485 : SerialRs485) : SerialRs485 :=
  let flags := updateFlags rs485.flags SER_RS485_ENABLED config.rs485Enabled
  let flags := updateFlags flags SER_RS485_RTS_ON_SEND config.rs485RtsOnSend
  let flags := updateFlags flags SER_RS485_RTS_AFTER_SEND config.rs485RtsAfterSend
  let flags := updateFlags flags SER_RS485_RX_DURING_TX config.rs485RxDuringTx
  let flags := updateFlags flags SER_RS485_TERMINATE_BUS config.rs485TerminateBus
  { flags := flags
    delayRtsBeforeSend :=
      if 0 ≤ config.rs485DelayRtsBeforeSend then BitVec.ofInt 32 config.rs485DelayRtsBeforeSend
      else rs485.delayRtsBeforeSend
    delayRtsAfterSend :=
      if 0 ≤ config.rs485DelayRtsAfterSend then BitVec.ofInt 32 config.rs485DelayRtsAfterSend
      else rs485.delayRtsAfterSend }

/-- `uart_config_rs485`. -/
def uartConfigRs485 (fails : Fails) (config : UartConfig) (d : Dev) : Bool × Dev :=
  if config.rs485UserConfigured then
    d.attempt fails .rs485Get fun d =>
      let rs485 := rs485Options config d.tty.rs485
      d.attempt fails .rs485Set fun d => (true, { d with tty := { d.tty with rs485 := rs485 } })
  else (true, d)

/-- The configuration `uart_get_rs485_config` reads back. -/
def reportRs485 (config : UartConfig) (rs485 : SerialRs485) : UartConfig :=
  { config with
    rs485Enabled := ofBool (rs485.flags &&& SER_RS485_ENABLED ≠ 0)
    rs485RtsOnSend := ofBool (rs485.flags &&& SER_RS485_RTS_ON_SEND ≠ 0)
    rs485RtsAfterSend := ofBool (rs485.flags &&& SER_RS485_RTS_AFTER_SEND ≠ 0)
    rs485RxDuringTx := ofBool (rs485.flags &&& SER_RS485_RX_DURING_TX ≠ 0)
    rs485TerminateBus := ofBool (rs485.flags &&& SER_RS485_TERMINATE_BUS ≠ 0)
    rs485DelayRtsBeforeSend := rs485.delayRtsBeforeSend.toNat
    rs485DelayRtsAfterSend := rs485.delayRtsAfterSend.toNat }

/-! ## The two sequences -/

/-- `uart_open` on an open descriptor, up to `handle_error`. -/
def openDevice (fails : Fails) (config : UartConfig) (d : Dev) : Bool × Dev :=
  d.attempt fails .flock fun d =>
    andThen (uartConfigLine fails config d) fun d =>
      andThen (uartConfigFlowcontrol fails config d) fun d =>
        andThen (if isCustomSpeed config.speed then setCustomSpeed fails config.speed d
            else (true, d)) fun d =>
          andThen (uartConfigRs485 fails config d) fun d =>
            -- nobody looks at what tcflush returns
            (true, (d.attempt fails .tcflush fun d => (true, d)).2)

/-- `uart_configure` on an open descriptor. -/
def configureDevice (fails : Fails) (config : UartConfig) (d : Dev) : Bool × Dev :=
  andThen (uartConfigLine fails config d) fun d =>
    andThen (uartConfigFlowcontrol fails config d) fun d =>
      uartConfigRs485 fails config d

end CircuitsUart.Port
