import CircuitsUart.Port.Opening

/-!
# RS485, field by field

`uart_config_rs485` merges a configuration into what it reads from the device: a flag or a delay
is set if the configuration has one, and kept if not. The flags share a word, so that the merge is
one edit of it after another; `ofDevice_rs485Options` says what they come to, field by field.

An option of the API sets at most one of these fields, and marks the configuration as the user's.

`Rs485Field` has the flags that no option sets as well, as one field, so that the fields cover the
word: two devices agree on RS485 exactly if they agree on all fields. A configuration has nothing
for that one, which is to say that it is always kept.
-/

set_option autoImplicit false

namespace CircuitsUart

namespace Port

open Lib

/-! ## The fields -/

/-- The fields of `struct serial_rs485`: the flags that have an option, the flags that have none,
and the delays. -/
inductive Rs485Field
  | enabled
  | rtsOnSend
  | rtsAfterSend
  | rxDuringTx
  | terminateBus
  | otherFlags
  | delayRtsBeforeSend
  | delayRtsAfterSend
  deriving DecidableEq, Repr

namespace Rs485Field

/-- What a device has in the field. -/
def ofDevice : Rs485Field → SerialRs485 → BitVec 32
  | .enabled, rs485 => rs485.flags &&& SER_RS485_ENABLED
  | .rtsOnSend, rs485 => rs485.flags &&& SER_RS485_RTS_ON_SEND
  | .rtsAfterSend, rs485 => rs485.flags &&& SER_RS485_RTS_AFTER_SEND
  | .rxDuringTx, rs485 => rs485.flags &&& SER_RS485_RX_DURING_TX
  | .terminateBus, rs485 => rs485.flags &&& SER_RS485_TERMINATE_BUS
  | .otherFlags, rs485 => rs485.flags &&& ~~~(SER_RS485_ENABLED ||| SER_RS485_RTS_ON_SEND |||
      SER_RS485_RTS_AFTER_SEND ||| SER_RS485_RX_DURING_TX ||| SER_RS485_TERMINATE_BUS)
  | .delayRtsBeforeSend, rs485 => rs485.delayRtsBeforeSend
  | .delayRtsAfterSend, rs485 => rs485.delayRtsAfterSend

/-- What a configuration has for the field; negative is "not set". -/
def ofConfig : Rs485Field → UartConfig → Int
  | .enabled, config => config.rs485Enabled
  | .rtsOnSend, config => config.rs485RtsOnSend
  | .rtsAfterSend, config => config.rs485RtsAfterSend
  | .rxDuringTx, config => config.rs485RxDuringTx
  | .terminateBus, config => config.rs485TerminateBus
  | .otherFlags, _ => -1
  | .delayRtsBeforeSend, config => config.rs485DelayRtsBeforeSend
  | .delayRtsAfterSend, config => config.rs485DelayRtsAfterSend

/-- What a setting that is not negative makes of the field. -/
def value : Rs485Field → Int → BitVec 32
  | .enabled, v => if v = 0 then 0 else SER_RS485_ENABLED
  | .rtsOnSend, v => if v = 0 then 0 else SER_RS485_RTS_ON_SEND
  | .rtsAfterSend, v => if v = 0 then 0 else SER_RS485_RTS_AFTER_SEND
  | .rxDuringTx, v => if v = 0 then 0 else SER_RS485_RX_DURING_TX
  | .terminateBus, v => if v = 0 then 0 else SER_RS485_TERMINATE_BUS
  | .otherFlags, _ => 0
  | .delayRtsBeforeSend, v => BitVec.ofInt 32 v
  | .delayRtsAfterSend, v => BitVec.ofInt 32 v

end Rs485Field

/-! ## The merge -/

/-- `update_flags` as an edit of the flags. -/
def tristateEdit (flagBit : Flags) (tristate : Int) : Edit 32 :=
  if tristate < 0 then .nothing else if tristate = 0 then ⟨flagBit, 0⟩ else ⟨0, flagBit⟩

theorem updateFlags_eq_run (flags flagBit : Flags) (tristate : Int) :
    updateFlags flags flagBit tristate = (tristateEdit flagBit tristate).run flags := by
  unfold updateFlags tristateEdit
  obtain unset | rfl | set := lt_trichotomy tristate 0
  · rw [if_neg (by omega), if_neg (by omega), if_pos unset, Edit.run_nothing]
  · rw [if_pos rfl, if_neg (by omega), if_pos rfl]
    exact (Edit.run_clearing ..).symm
  · rw [if_neg (by omega), if_pos set, if_neg (by omega), if_neg (by omega)]
    exact (Edit.run_setting ..).symm

/-- The flag itself. -/
theorem updateFlags_and_self (flags flagBit : Flags) (tristate : Int) :
    updateFlags flags flagBit tristate &&& flagBit =
      if tristate < 0 then flags &&& flagBit else if tristate = 0 then 0 else flagBit := by
  rw [updateFlags_eq_run, tristateEdit]
  split
  · rw [Edit.run_nothing]
  · split
    · rw [Edit.run_and_of_cleared _ _ (by simp)]
      simp
    · exact Edit.run_and_of_set _ _ BitVec.and_self

/-- The other flags stay. -/
theorem updateFlags_and_other {flagBit k : Flags} (other : flagBit &&& k = 0#32) (flags : Flags)
    (tristate : Int) : updateFlags flags flagBit tristate &&& k = flags &&& k := by
  rw [updateFlags_eq_run, tristateEdit]
  split
  · rw [Edit.run_nothing]
  · split
    · exact Edit.run_and_of_untouched _ _ other BitVec.zero_and
    · exact Edit.run_and_of_untouched _ _ BitVec.zero_and other

/-- A delay is taken over unless it is not set. -/
theorem delay_eq (delay : Int) (device : BitVec 32) :
    (if 0 ≤ delay then BitVec.ofInt 32 delay else device) =
      if delay < 0 then device else BitVec.ofInt 32 delay := by
  by_cases unset : delay < 0
  · rw [if_pos unset, if_neg (Int.not_le.mpr unset)]
  · rw [if_neg unset, if_pos (Int.not_lt.mp unset)]

/-- **The merge, field by field**: what the configuration has, or what the device had. -/
theorem ofDevice_rs485Options (f : Rs485Field) (config : UartConfig) (rs485 : SerialRs485) :
    f.ofDevice (rs485Options config rs485) =
      if f.ofConfig config < 0 then f.ofDevice rs485 else f.value (f.ofConfig config) := by
  cases f with
  | delayRtsBeforeSend => exact delay_eq config.rs485DelayRtsBeforeSend rs485.delayRtsBeforeSend
  | delayRtsAfterSend => exact delay_eq config.rs485DelayRtsAfterSend rs485.delayRtsAfterSend
  | _ =>
    -- of the five edits of the flags, one at most is of this field
    simp (disch := decide) only [Rs485Field.ofDevice, Rs485Field.ofConfig, Rs485Field.value,
      rs485Options, updateFlags_and_other, updateFlags_and_self]
    rfl

end Port

/-! ## The options -/

open Port

/-- The field that an option sets. -/
def UartOption.rs485? : UartOption → Option Rs485Field
  | .rs485Enabled _ => some .enabled
  | .rs485RtsOnSend _ => some .rtsOnSend
  | .rs485RtsAfterSend _ => some .rtsAfterSend
  | .rs485RxDuringTx _ => some .rxDuringTx
  | .rs485TerminateBus _ => some .terminateBus
  | .rs485DelayRtsBeforeSend _ => some .delayRtsBeforeSend
  | .rs485DelayRtsAfterSend _ => some .delayRtsAfterSend
  | _ => none

namespace Port

/-- A call's option list contains an `rs485_*` option. -/
def asksRs485 (opts : List UartOption) : Bool := opts.any fun o => o.rs485?.isSome

/-- No option of a list is of the field. -/
def Unmentioned (f : Rs485Field) (opts : List UartOption) : Prop := ∀ o ∈ opts, o.rs485? ≠ some f

/-- What options do to the RS485 half of a configuration: `asked` says whether one of them was
of a field, and `others` of which fields none was. -/
structure LeavesRs485 (asked : Bool) (others : Rs485Field → Prop) (config config' : UartConfig) :
    Prop where
  user : config'.rs485UserConfigured = (config.rs485UserConfigured || asked)
  fields : ∀ f, others f → f.ofConfig config' = f.ofConfig config

theorem parseOption_rs485 {config config' : UartConfig} {o : UartOption}
    (h : parseOption config o.encode = some config') :
    LeavesRs485 o.rs485?.isSome (fun f => o.rs485? ≠ some f) config config' := by
  cases o <;>
    simp only [UartOption.encode, Term.pair, parseOption, parseValue, decodeBoolean_bool,
      Option.map_some, Option.map_eq_some_iff, Option.some.injEq] at h
  case speed | dataBits | stopBits | parity | flowControl =>
    obtain ⟨_, -, rfl⟩ := h
    exact ⟨(Bool.or_false _).symm, fun f _ => by cases f <;> rfl⟩
  case active =>
    subst h
    exact ⟨(Bool.or_false _).symm, fun f _ => by cases f <;> rfl⟩
  case framing | rxFramingTimeout | id =>
    obtain rfl := Option.some.inj h
    exact ⟨(Bool.or_false _).symm, fun f _ => by cases f <;> rfl⟩
  case rs485DelayRtsBeforeSend | rs485DelayRtsAfterSend =>
    obtain ⟨_, -, rfl⟩ := h
    exact ⟨(Bool.or_true _).symm, fun f other => by
      cases f <;> first | rfl | exact absurd rfl other⟩
  all_goals
    subst h
    exact ⟨(Bool.or_true _).symm, fun f other => by
      cases f <;> first | rfl | exact absurd rfl other⟩

/-- **What a list of options leaves alone.** -/
theorem configure_rs485 {config config' : UartConfig} {opts : List UartOption}
    (h : configure config opts = some config') :
    LeavesRs485 (asksRs485 opts) (fun f => Unmentioned f opts) config config' := by
  induction opts generalizing config with
  | nil =>
    obtain rfl := Option.some.inj h
    exact ⟨(Bool.or_false _).symm, fun _ _ => rfl⟩
  | cons o opts ih =>
    rw [configure_cons] at h
    obtain ⟨config₁, ho, hopts⟩ := Option.bind_eq_some_iff.mp h
    have here := parseOption_rs485 ho
    have rest := ih hopts
    constructor
    · rw [rest.user, here.user, Bool.or_assoc]
      rfl
    · intro f other
      have later : Unmentioned f opts := fun o' inside => other o' (List.mem_cons_of_mem _ inside)
      exact (rest.fields f later).trans (here.fields f (other o List.mem_cons_self))

end Port

end CircuitsUart
