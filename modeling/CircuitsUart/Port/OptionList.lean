import CircuitsUart.Lib.Fields
import CircuitsUart.Port.External
import CircuitsUart.Port.Program

/-!
# Option lists of any terms

`parse_option_list` at its cursor, on a list of pairs whose keys and values may be anything. What
it makes of a pair is a setting, nothing, a refusal of the whole list, or a write past the end of
a buffer on the stack.

`given` is what a pair says by the documentation; `reading` is what the code makes of it. The list
is parsed exactly if the two lead to the same.

A setting is data and not an assignment: a key, and the value that its branch of the code stores.
The dozen branches then differ in one table, and the fields of a configuration are a family in the
sense of `Lib.Fields`, so the last setting of a key decides what is in its field.
-/

set_option autoImplicit false

namespace CircuitsUart

open Lib

namespace Port

/-! ## Keys and settings -/

/-- The keys that `parse_option_list` knows. -/
inductive Key
  | active
  | speed
  | dataBits
  | stopBits
  | parity
  | flowControl
  | rs485Enabled
  | rs485RtsOnSend
  | rs485RtsAfterSend
  | rs485RxDuringTx
  | rs485TerminateBus
  | rs485DelayRtsBeforeSend
  | rs485DelayRtsAfterSend
  deriving DecidableEq, Repr

/-- The `strcmp` of a key with each of the names. -/
def Key.find : String → Option Key
  | "active" => some .active
  | "speed" => some .speed
  | "data_bits" => some .dataBits
  | "stop_bits" => some .stopBits
  | "parity" => some .parity
  | "flow_control" => some .flowControl
  | "rs485_enabled" => some .rs485Enabled
  | "rs485_rts_on_send" => some .rs485RtsOnSend
  | "rs485_rts_after_send" => some .rs485RtsAfterSend
  | "rs485_rx_during_tx" => some .rs485RxDuringTx
  | "rs485_terminate_bus" => some .rs485TerminateBus
  | "rs485_delay_rts_before_send" => some .rs485DelayRtsBeforeSend
  | "rs485_delay_rts_after_send" => some .rs485DelayRtsAfterSend
  | _ => none

/-- A field of `struct uart_config` with its value. -/
inductive Setting
  | active (v : Bool)
  | speed (v : Int)
  | dataBits (v : Int)
  | stopBits (v : Int)
  | parity (v : Parity)
  | flowControl (v : FlowControl)
  | rs485Enabled (v : Int)
  | rs485RtsOnSend (v : Int)
  | rs485RtsAfterSend (v : Int)
  | rs485RxDuringTx (v : Int)
  | rs485TerminateBus (v : Int)
  | rs485DelayRtsBeforeSend (v : Int)
  | rs485DelayRtsAfterSend (v : Int)
  deriving DecidableEq, Repr

def Setting.key : Setting → Key
  | .active _ => .active
  | .speed _ => .speed
  | .dataBits _ => .dataBits
  | .stopBits _ => .stopBits
  | .parity _ => .parity
  | .flowControl _ => .flowControl
  | .rs485Enabled _ => .rs485Enabled
  | .rs485RtsOnSend _ => .rs485RtsOnSend
  | .rs485RtsAfterSend _ => .rs485RtsAfterSend
  | .rs485RxDuringTx _ => .rs485RxDuringTx
  | .rs485TerminateBus _ => .rs485TerminateBus
  | .rs485DelayRtsBeforeSend _ => .rs485DelayRtsBeforeSend
  | .rs485DelayRtsAfterSend _ => .rs485DelayRtsAfterSend

/-- The assignments to `config`. -/
def Setting.apply : Setting → UartConfig → UartConfig
  | .active v, config => { config with active := v }
  | .speed v, config => { config with speed := v }
  | .dataBits v, config => { config with dataBits := v }
  | .stopBits v, config => { config with stopBits := v }
  | .parity v, config => { config with parity := v }
  | .flowControl v, config => { config with flowControl := v }
  | .rs485Enabled v, config => { config with rs485Enabled := v, rs485UserConfigured := true }
  | .rs485RtsOnSend v, config => { config with rs485RtsOnSend := v, rs485UserConfigured := true }
  | .rs485RtsAfterSend v, config =>
    { config with rs485RtsAfterSend := v, rs485UserConfigured := true }
  | .rs485RxDuringTx v, config => { config with rs485RxDuringTx := v, rs485UserConfigured := true }
  | .rs485TerminateBus v, config =>
    { config with rs485TerminateBus := v, rs485UserConfigured := true }
  | .rs485DelayRtsBeforeSend v, config =>
    { config with rs485DelayRtsBeforeSend := v, rs485UserConfigured := true }
  | .rs485DelayRtsAfterSend v, config =>
    { config with rs485DelayRtsAfterSend := v, rs485UserConfigured := true }

/-- The field of a configuration with this key. -/
def UartConfig.setting : Key → UartConfig → Setting
  | .active, config => .active config.active
  | .speed, config => .speed config.speed
  | .dataBits, config => .dataBits config.dataBits
  | .stopBits, config => .stopBits config.stopBits
  | .parity, config => .parity config.parity
  | .flowControl, config => .flowControl config.flowControl
  | .rs485Enabled, config => .rs485Enabled config.rs485Enabled
  | .rs485RtsOnSend, config => .rs485RtsOnSend config.rs485RtsOnSend
  | .rs485RtsAfterSend, config => .rs485RtsAfterSend config.rs485RtsAfterSend
  | .rs485RxDuringTx, config => .rs485RxDuringTx config.rs485RxDuringTx
  | .rs485TerminateBus, config => .rs485TerminateBus config.rs485TerminateBus
  | .rs485DelayRtsBeforeSend, config => .rs485DelayRtsBeforeSend config.rs485DelayRtsBeforeSend
  | .rs485DelayRtsAfterSend, config => .rs485DelayRtsAfterSend config.rs485DelayRtsAfterSend

/-- The fields that options set. -/
def optionFields : Fields UartConfig Key Setting where
  key := Setting.key
  write := Setting.apply
  read := UartConfig.setting
  read_write k w config := by cases w <;> cases k <;> rfl

/-! ## `parse_option_list` -/

/-- The branch for a key: the value is decoded, and `none` is an atom that names nothing. -/
def Key.decode : Key → Etf.Tag → Verdict (Option Setting)
  | .active, tag => (eiDecodeBoolean tag).map fun v => some (.active v)
  | .speed, tag => (eiDecodeLong tag).map fun v => some (.speed (toInt v))
  | .dataBits, tag => (eiDecodeLong tag).map fun v => some (.dataBits (toInt v))
  | .stopBits, tag => (eiDecodeLong tag).map fun v => some (.stopBits (toInt v))
  | .parity, tag => (eiDecodeAtom 16 tag).map fun name => (decodeParity name).map .parity
  | .flowControl, tag =>
    (eiDecodeAtom 16 tag).map fun name => (decodeFlowControl name).map .flowControl
  | .rs485Enabled, tag => (eiDecodeBoolean tag).map fun v => some (.rs485Enabled (ofBool v))
  | .rs485RtsOnSend, tag => (eiDecodeBoolean tag).map fun v => some (.rs485RtsOnSend (ofBool v))
  | .rs485RtsAfterSend, tag =>
    (eiDecodeBoolean tag).map fun v => some (.rs485RtsAfterSend (ofBool v))
  | .rs485RxDuringTx, tag => (eiDecodeBoolean tag).map fun v => some (.rs485RxDuringTx (ofBool v))
  | .rs485TerminateBus, tag =>
    (eiDecodeBoolean tag).map fun v => some (.rs485TerminateBus (ofBool v))
  | .rs485DelayRtsBeforeSend, tag =>
    (eiDecodeLong tag).map fun v => some (.rs485DelayRtsBeforeSend v)
  | .rs485DelayRtsAfterSend, tag =>
    (eiDecodeLong tag).map fun v => some (.rs485DelayRtsAfterSend v)

/-- The configuration after a branch. -/
def assign (config : UartConfig) : Option Setting → UartConfig
  | none => config
  | some setting => setting.apply config

/-- One turn of the loop, with the cursor after it. -/
def parseTurn (config : UartConfig) : List Etf.Tag → Verdict (UartConfig × List Etf.Tag)
  | .tuple 2 :: keyTag :: req =>
    (eiDecodeAtom 64 keyTag).bind fun key =>
      match Key.find key with
      | none => .ok (config, skipTerm req)
      | some key =>
        match req with
        | valueTag :: req => (key.decode valueTag).map fun setting => (assign config setting, req)
        | [] => .failed
  | _ => .failed

/-- The loop over the options. -/
def parseTurns : Nat → UartConfig → List Etf.Tag → Verdict (UartConfig × List Etf.Tag)
  | 0, config, req => .ok (config, req)
  | optionCount + 1, config, req =>
    (parseTurn config req).bind fun (config, req) => parseTurns optionCount config req

/-- `parse_option_list` at the cursor. -/
def parseOptionListAt (config : UartConfig) : List Etf.Tag → Verdict (UartConfig × List Etf.Tag)
  | .nil :: req => parseTurns 0 config (.nil :: req)
  | .list optionCount :: req => parseTurns optionCount config req
  | _ => .failed

end Port

namespace Program

open Port

variable {β : Type}

/-- `handle_configure` on the encoded options; nothing is said of a run with an overrun. -/
def handleConfigureAt (os : Os β) (req : List Etf.Tag) (p : Program β) :
    Option (Except Stop (Program β)) :=
  match parseOptionListAt p.currentConfig req with
  | .failed => some (.ok (p.sendErrorResponse .einval))
  | .ok (config, _) =>
    some do
      match ← p.uartConfigure os config with
      | (true, p) => return (p.adopt os config).sendOkResponse
      | (false, p) => return p.sendErrorResponse p.lastError
  | .overrun => none

/-- `handle_open` on the encoded options. -/
def handleOpenAt (os : Os β) (name : List UInt8) (req : List Etf.Tag) (p : Program β) :
    Option (Program β) :=
  if 64 ≤ name.length then some (p.sendErrorResponse .enoent)
  else
    match parseOptionListAt p.currentConfig req with
    | .failed => some (p.sendErrorResponse .einval)
    | .ok (config, _) =>
      let p := if p.uartIsOpen then p.uartClose else p
      some <|
        match p.uartOpen os (cString name) config with
        | (true, p) => (p.adopt os config).sendOkResponse
        | (false, p) => p.sendErrorResponse p.lastError
    | .overrun => none

end Program

end CircuitsUart
