import CircuitsUart.Wire

/-!
# `struct uart_config`, and the options it is read from

`parse_option_list` edits a configuration one option at a time, in the order of the list,
so that the last occurrence of a key decides; keys it does not know are skipped, and the
first value it cannot decode fails the whole list.

The numbers are those of C where it matters. `ei_decode_long` takes any `long`, and what it takes
is then assigned to an `int`, which keeps the low 32 bits (`toInt`); so a speed of `2^32 + 9600` is
9600, and one of `2^63` fails the list. A boolean is kept in an `int` too, because the RS485
options have a third value, -1, for what was never set.

There are two entrances. `parseOptionList` is the loop of the source and takes terms, well formed
or not; `configure` takes options of the API and goes through it, so that a theorem about a
call need not say what an option looks like as a term.
-/

set_option autoImplicit false

namespace CircuitsUart

namespace Port

/-- `struct uart_config`. -/
structure UartConfig where
  active : Bool
  speed : Int
  dataBits : Int
  stopBits : Int
  parity : Parity
  flowControl : FlowControl
  rs485UserConfigured : Bool
  -- -1 is "not set"
  rs485Enabled : Int
  rs485RtsOnSend : Int
  rs485RtsAfterSend : Int
  rs485RxDuringTx : Int
  rs485TerminateBus : Int
  rs485DelayRtsBeforeSend : Int
  rs485DelayRtsAfterSend : Int
  deriving DecidableEq, Repr

/-- `uart_default_config`. -/
def uartDefaultConfig : UartConfig where
  active := true
  speed := 9600
  dataBits := 8
  stopBits := 1
  parity := .none
  flowControl := .none
  rs485UserConfigured := false
  rs485Enabled := -1
  rs485RtsOnSend := -1
  rs485RtsAfterSend := -1
  rs485RxDuringTx := -1
  rs485TerminateBus := -1
  rs485DelayRtsBeforeSend := -1
  rs485DelayRtsAfterSend := -1

/-! ## Decoding -/

-- A `long` has 64 bits.
def LONG_MIN : Int := -0x8000000000000000
def LONG_MAX : Int := 0x7fffffffffffffff

/-- `ei_decode_long`. -/
def decodeLong : Term → Option Int
  | .int v => if LONG_MIN ≤ v ∧ v ≤ LONG_MAX then some v else none
  | _ => none

/-- A `long` assigned to an `int`. -/
def toInt (v : Int) : Int := (BitVec.ofInt 32 v).toInt

/-- `ei_decode_boolean`. -/
def decodeBoolean : Term → Option Bool
  | .atom "true" => some true
  | .atom "false" => some false
  | _ => none

/-- `ei_decode_atom`. -/
def decodeAtom : Term → Option String
  | .atom name => some name
  | _ => none

/-- The parity an atom names; any other atom leaves the parity as it was. -/
def decodeParity : String → Option Parity
  | "none" => some .none
  | "even" => some .even
  | "odd" => some .odd
  | "space" => some .space
  | "mark" => some .mark
  | "ignore" => some .ignore
  | _ => none

def decodeFlowControl : String → Option FlowControl
  | "none" => some .none
  | "hardware" => some .hardware
  | "software" => some .software
  | _ => none

/-- An `int` that holds a boolean. -/
def ofBool (v : Bool) : Int := if v then 1 else 0

/-- One turn of the loop in `parse_option_list`, on the value of the key. -/
def parseValue (config : UartConfig) (key : String) (value : Term) : Option UartConfig :=
  match key with
  | "active" => (decodeBoolean value).map fun v => { config with active := v }
  | "speed" => (decodeLong value).map fun v => { config with speed := toInt v }
  | "data_bits" => (decodeLong value).map fun v => { config with dataBits := toInt v }
  | "stop_bits" => (decodeLong value).map fun v => { config with stopBits := toInt v }
  | "parity" =>
    (decodeAtom value).map fun v => { config with parity := (decodeParity v).getD config.parity }
  | "flow_control" =>
    (decodeAtom value).map fun v =>
      { config with flowControl := (decodeFlowControl v).getD config.flowControl }
  | "rs485_enabled" =>
    (decodeBoolean value).map fun v =>
      { config with rs485Enabled := ofBool v, rs485UserConfigured := true }
  | "rs485_rts_on_send" =>
    (decodeBoolean value).map fun v =>
      { config with rs485RtsOnSend := ofBool v, rs485UserConfigured := true }
  | "rs485_rts_after_send" =>
    (decodeBoolean value).map fun v =>
      { config with rs485RtsAfterSend := ofBool v, rs485UserConfigured := true }
  | "rs485_rx_during_tx" =>
    (decodeBoolean value).map fun v =>
      { config with rs485RxDuringTx := ofBool v, rs485UserConfigured := true }
  | "rs485_terminate_bus" =>
    (decodeBoolean value).map fun v =>
      { config with rs485TerminateBus := ofBool v, rs485UserConfigured := true }
  | "rs485_delay_rts_before_send" =>
    (decodeLong value).map fun v =>
      { config with rs485DelayRtsBeforeSend := v, rs485UserConfigured := true }
  | "rs485_delay_rts_after_send" =>
    (decodeLong value).map fun v =>
      { config with rs485DelayRtsAfterSend := v, rs485UserConfigured := true }
  | _ => some config

def parseOption (config : UartConfig) : Term → Option UartConfig
  | .tuple [.atom key, value] => parseValue config key value
  | _ => none

/-- `parse_option_list`. -/
def parseOptionList (config : UartConfig) (options : List Term) : Option UartConfig :=
  options.foldlM parseOption config

/-! ## Options of the API -/

/-- The configuration a list of API options leaves, if they can all be decoded. -/
def configure (config : UartConfig) (opts : List UartOption) : Option UartConfig :=
  parseOptionList config (opts.map UartOption.encode)

theorem configure_cons (config : UartConfig) (o : UartOption) (opts : List UartOption) :
    configure config (o :: opts) =
      (parseOption config o.encode).bind fun config' => configure config' opts := rfl

/-- The last occurrence of `:active`, or the mode there was. -/
def lastActive (opts : List UartOption) (active : Bool) : Bool :=
  opts.foldl (fun active o => o.active?.getD active) active

theorem decodeBoolean_bool (v : Bool) : decodeBoolean (.bool v) = some v := by
  cases v <;> rfl

/-- What one option does to the mode and to the speed. -/
theorem parseOption_encode {config config' : UartConfig} {o : UartOption}
    (h : parseOption config o.encode = some config') :
    config'.active = o.active?.getD config.active ∧
      config'.speed = (o.speed?.map fun v => toInt v).getD config.speed := by
  cases o <;>
    simp only [UartOption.encode, Term.pair, parseOption, parseValue, decodeBoolean_bool,
      Option.map_some, Option.map_eq_some_iff, Option.some.injEq] at h
  case active v => subst h; exact ⟨rfl, rfl⟩
  case speed v =>
    obtain ⟨w, hw, rfl⟩ := h
    have : (v : Int) = w := by
      simp only [decodeLong] at hw
      split at hw
      · exact Option.some.inj hw
      · exact absurd hw (by simp)
    exact ⟨rfl, by rw [← this]; rfl⟩
  all_goals (obtain ⟨_, -, rfl⟩ := h; exact ⟨rfl, rfl⟩)

theorem configure_active {config config' : UartConfig} {opts : List UartOption}
    (h : configure config opts = some config') : config'.active = lastActive opts config.active := by
  induction opts generalizing config with
  | nil => rw [← Option.some.inj h]; rfl
  | cons o opts ih =>
    rw [configure_cons] at h
    obtain ⟨config₁, ho, hopts⟩ := Option.bind_eq_some_iff.mp h
    rw [ih hopts, (parseOption_encode ho).1]
    rfl

/-- Options that do not mention `:speed` leave it. -/
theorem configure_speed {config config' : UartConfig} {opts : List UartOption}
    (h : configure config opts = some config') (unmentioned : ∀ o ∈ opts, o.speed? = none) :
    config'.speed = config.speed := by
  induction opts generalizing config with
  | nil => rw [← Option.some.inj h]
  | cons o opts ih =>
    rw [configure_cons] at h
    obtain ⟨config₁, ho, hopts⟩ := Option.bind_eq_some_iff.mp h
    have hspeed := (parseOption_encode ho).2
    rw [unmentioned o (by simp)] at hspeed
    rw [ih hopts fun o' ho' => unmentioned o' (by simp [ho'])]
    exact hspeed

end Port

end CircuitsUart
