import CircuitsUart.Port.Reconfigure

/-!
# A configuration the device refuses

`uart_configure` sets a device step by step, and gives up at the first step that fails. `Point`
says how far it got, and `settingsAt` what it has then made of the device: nothing is undone, so
that the device is as it was only if what had been set by then was what it had (`Keeps`).

A failed `configure` could be described by running the sequence again, and nothing would be
learned from it. `failsAt` is instead a function of the configuration, the device and the calls
that fail, and it computes the point without setting anything; `settingsAt` is then a closed
expression for each point, three at most deep. `configureDevice_stops` says that this is what the
sequence does.

`Keeps` is smaller again. That a device has kept its settings need not be asked of the whole of
them, because the steps edit bits of different words or different bits of one
(`lineSettings_eq_of_flow`): no later step can undo an earlier one by chance.
-/

set_option autoImplicit false

namespace CircuitsUart

namespace Port

open Lib

/-! ## How far a configuration gets -/

/-- How far `uart_configure` got with a device when it failed. -/
inductive Point
  | start
  /-- the custom speed was cleared, the line was not set -/
  | speed
  /-- the line was set, the flow control was not -/
  | line
  /-- the flow control was set, RS485 was not -/
  | flow
  deriving DecidableEq, Repr

/-- The custom speed of the device is cleared. -/
def ClearsSpeed (fails : Fails) (config : UartConfig) (tty : Tty) : Prop :=
  (toBaudrateConstant config.speed).isSome = true ∧ fails .serialGet = none ∧
    tty.serial.flags &&& ASYNC_SPD_CUST ≠ 0 ∧ fails .serialSet = none

instance (fails : Fails) (config : UartConfig) (tty : Tty) :
    Decidable (ClearsSpeed fails config tty) := inferInstanceAs (Decidable (_ ∧ _))

/-- The device after `clear_custom_speed`, if that is called. -/
def speedSettings (fails : Fails) (config : UartConfig) (tty : Tty) : Tty :=
  if ClearsSpeed fails config tty then
    { tty with serial := ⟨tty.serial.flags &&& ~~~ASYNC_SPD_MASK, 0⟩ }
  else tty

/-- The bits that are read back are those that were asked for. -/
def ReadsBack (config : UartConfig) (tty : Tty) : Prop :=
  (lineSettings config tty).termios.cflag &&& lineMask (lineOptions config tty.termios).cflag =
    (lineOptions config tty.termios).cflag &&& lineMask (lineOptions config tty.termios).cflag

instance (config : UartConfig) (tty : Tty) : Decidable (ReadsBack config tty) :=
  inferInstanceAs (Decidable (_ = _))

/-- Where `uart_config_line` fails: at the first call that does, or when what is read back is not
what was asked for. -/
def lineFailsAt (fails : Fails) (config : UartConfig) (tty : Tty) : Option Point :=
  if (fails .lineGet).isSome then some .start
  else if (fails .lineSet).isSome then some .speed
  else if (fails .lineCheck).isSome ∨ ¬ ReadsBack config tty then some .line
  else none

/-- Where `uart_config_flowcontrol` fails. -/
def flowFailsAt (fails : Fails) : Option Point :=
  if (fails .flowGet).isSome ∨ (fails .flowSet).isSome then some .line else none

/-- Where `uart_config_rs485` fails. -/
def rs485FailsAt (fails : Fails) (config : UartConfig) : Option Point :=
  if config.rs485UserConfigured ∧ ((fails .rs485Get).isSome ∨ (fails .rs485Set).isSome) then
    some .flow
  else none

/-- Where `uart_configure` fails with a device, if it does. -/
def failsAt (fails : Fails) (config : UartConfig) (tty : Tty) : Option Point :=
  (lineFailsAt fails config tty).or ((flowFailsAt fails).or (rs485FailsAt fails config))

/-- What is left of the device when `uart_configure` fails at a point. -/
def settingsAt (fails : Fails) (config : UartConfig) (tty : Tty) : Point → Tty
  | .start => tty
  | .speed => speedSettings fails config tty
  | .line => lineSettings config (speedSettings fails config tty)
  | .flow => flowSettings config (lineSettings config (speedSettings fails config tty))

/-- What `clear_custom_speed` is called for. -/
theorem clearCustomSpeed_tty (fails : Fails) (config : UartConfig) (d : Dev) :
    (if (toBaudrateConstant config.speed).isSome then (clearCustomSpeed fails d).2 else d).tty =
      speedSettings fails config d.tty := by
  unfold speedSettings
  by_cases clears : ClearsSpeed fails config d.tty
  · rw [if_pos clears]
    obtain ⟨known, get, custom, set⟩ := clears
    rw [if_pos known]
    unfold clearCustomSpeed Dev.attempt
    rw [get, set]
    dsimp only
    rw [if_pos custom]
  · rw [if_neg clears]
    split
    · next known =>
      unfold clearCustomSpeed Dev.attempt
      cases get : fails .serialGet with
      | some errno => rfl
      | none =>
        dsimp only
        split
        · next custom =>
          cases set : fails .serialSet with
          | some errno => rfl
          | none => exact absurd ⟨known, get, custom, set⟩ clears
        · rfl
    · rfl

/-! ### Step by step -/

/-- A step that fails at a point, with what was set by then, or goes on with a device in `Q`. -/
def Stops (left : Point → Tty) (Q : Tty → Prop) (point : Option Point) (r : Bool × Dev) : Prop :=
  match point with
  | some point => r.1 = false ∧ r.2.tty = left point
  | none => r.1 = true ∧ Q r.2.tty

theorem Stops.andThen {left : Point → Tty} {Q R : Tty → Prop} {point point' : Option Point}
    {r : Bool × Dev} {go : Dev → Bool × Dev} (h : Stops left Q point r)
    (hgo : ∀ d, Q d.tty → Stops left R point' (go d)) :
    Stops left R (point.or point') (andThen r go) := by
  obtain ⟨ok, d⟩ := r
  cases point with
  | some point =>
    obtain ⟨failed, tty⟩ := h
    obtain rfl : ok = false := failed
    exact ⟨rfl, tty⟩
  | none =>
    obtain ⟨went, tty⟩ := h
    obtain rfl : ok = true := went
    rw [Option.none_or]
    exact hgo d tty

theorem uartConfigLine_stops (fails : Fails) (config : UartConfig) (d : Dev) :
    Stops (settingsAt fails config d.tty) (· = settingsAt fails config d.tty .line)
      (lineFailsAt fails config d.tty) (uartConfigLine fails config d) := by
  have cleared := clearCustomSpeed_tty fails config d
  have termios : (speedSettings fails config d.tty).termios = d.tty.termios := by
    unfold speedSettings
    split <;> rfl
  have applied : (speedSettings fails config d.tty).applied = d.tty.applied := by
    unfold speedSettings
    split <;> rfl
  have set : (speedSettings fails config d.tty).tcsetattr (lineOptions config d.tty.termios) =
      settingsAt fails config d.tty .line := by
    rw [settingsAt, lineSettings, termios]
  have word : (settingsAt fails config d.tty .line).termios = (lineSettings config d.tty).termios := by
    rw [← set, lineSettings, Tty.tcsetattr, Tty.tcsetattr, termios, applied]
  unfold uartConfigLine Dev.attempt lineFailsAt
  cases fails .lineGet with
  | some errno => exact ⟨rfl, rfl⟩
  | none =>
    dsimp only
    obtain ⟨e, he⟩ : ∃ e, e = if (toBaudrateConstant config.speed).isSome then
        (clearCustomSpeed fails d).2 else d := ⟨_, rfl⟩
    rw [← he] at cleared ⊢
    cases fails .lineSet with
    | some errno => exact ⟨rfl, cleared⟩
    | none =>
      dsimp only
      rw [cleared, set]
      cases fails .lineCheck with
      | some errno => exact ⟨rfl, rfl⟩
      | none =>
        dsimp only
        rw [word]
        by_cases back : ReadsBack config d.tty
        · have same := not_not_intro back
          unfold ReadsBack at same
          rw [if_neg same]
          simp only [Option.isSome_none, Bool.false_eq_true, if_false, back, not_true_eq_false,
            or_self]
          exact ⟨rfl, rfl⟩
        · have differs := back
          unfold ReadsBack at differs
          rw [if_pos differs]
          simp only [Option.isSome_none, Bool.false_eq_true, if_false, back, not_false_eq_true,
            or_true, if_true]
          exact ⟨rfl, rfl⟩

theorem uartConfigFlowcontrol_stops {fails : Fails} {config : UartConfig} {tty : Tty} {d : Dev}
    (h : d.tty = settingsAt fails config tty .line) :
    Stops (settingsAt fails config tty) (· = settingsAt fails config tty .flow)
      (flowFailsAt fails) (uartConfigFlowcontrol fails config d) := by
  unfold uartConfigFlowcontrol Dev.attempt flowFailsAt
  cases fails .flowGet with
  | some errno => exact ⟨rfl, h⟩
  | none =>
    cases fails .flowSet with
    | some errno => exact ⟨rfl, h⟩
    | none => exact ⟨rfl, congrArg (flowSettings config) h⟩

theorem uartConfigRs485_stops {fails : Fails} {config : UartConfig} {tty : Tty} {d : Dev}
    (h : d.tty = settingsAt fails config tty .flow) :
    Stops (settingsAt fails config tty) (fun _ => True) (rs485FailsAt fails config)
      (uartConfigRs485 fails config d) := by
  unfold uartConfigRs485 Dev.attempt rs485FailsAt
  cases config.rs485UserConfigured with
  | false => exact ⟨rfl, trivial⟩
  | true =>
    cases fails .rs485Get with
    | some errno => exact ⟨rfl, h⟩
    | none =>
      cases fails .rs485Set with
      | some errno => exact ⟨rfl, h⟩
      | none => exact ⟨rfl, trivial⟩

/-- **A configuration that fails** fails at a point, and leaves what had been set by then. -/
theorem configureDevice_stops (fails : Fails) (config : UartConfig) (d : Dev) :
    Stops (settingsAt fails config d.tty) (fun _ => True) (failsAt fails config d.tty)
      (configureDevice fails config d) := by
  refine (uartConfigLine_stops fails config d).andThen fun d' line => ?_
  exact (uartConfigFlowcontrol_stops line).andThen fun d'' flow => uartConfigRs485_stops flow

/-! ## What had been set by then -/

/-- What `uart_configure` has set when it fails at a point is what the device had. -/
def Keeps (fails : Fails) (config : UartConfig) (tty : Tty) : Point → Prop
  | .start => True
  | .speed => ¬ ClearsSpeed fails config tty
  | .line => ¬ ClearsSpeed fails config tty ∧ lineSettings config tty = tty
  | .flow => ¬ ClearsSpeed fails config tty ∧ lineSettings config tty = tty ∧
      flowSettings config tty = tty

/-- A custom speed that is cleared is gone. -/
theorem speedSettings_serial_iff (fails : Fails) (config : UartConfig) (tty : Tty) :
    (speedSettings fails config tty).serial = tty.serial ↔ ¬ ClearsSpeed fails config tty := by
  unfold speedSettings
  by_cases clears : ClearsSpeed fails config tty
  · rw [if_pos clears]
    refine iff_of_false (fun same => clears.2.2.1 ?_) (not_not_intro clears)
    have flags : tty.serial.flags &&& ~~~ASYNC_SPD_MASK = tty.serial.flags :=
      congrArg SerialStruct.flags same
    rw [← flags, BitVec.and_assoc, show ~~~ASYNC_SPD_MASK &&& ASYNC_SPD_CUST = 0#32 by decide]
    simp
  · rw [if_neg clears]
    exact iff_of_true rfl clears

theorem speedSettings_eq {fails : Fails} {config : UartConfig} {tty : Tty}
    (kept : ¬ ClearsSpeed fails config tty) : speedSettings fails config tty = tty := if_neg kept

/-- The flow control does not undo what the line settings do: they are edits of other bits. -/
theorem lineSettings_eq_of_flow {config : UartConfig} {tty : Tty}
    (h : flowSettings config (lineSettings config tty) = tty) : lineSettings config tty = tty := by
  have takes := (lineSettings_takes config tty).trans (flowSettings_takes config _)
  rw [h] at takes
  have line := lineSettings_takes config tty
  have cflag : (lineSettings config tty).termios.cflag = tty.termios.cflag := by
    have apart : (lineChange config).cflag.touched &&&
        (flowChange config.flowControl).cflag.touched = 0#32 := by
      rw [flowChange_touched, lineChange, lineEdit_touched]
      cases config.parity <;> decide
    have whole := takes.cflag.symm
    rw [Change.andThen, Edit.restrict_andThen] at whole
    rw [line.cflag]
    exact Edit.run_eq_of_andThen (Edit.restrict_touched_disjoint tty.applied apart) whole
  have iflag : (lineSettings config tty).termios.iflag = tty.termios.iflag := by
    have apart : (lineChange config).iflag.touched &&&
        (flowChange config.flowControl).iflag.touched = 0#32 := by
      show (Edit.mk (ICRNL ||| INLCR) 0#32).touched &&& (flowChange config.flowControl).iflag.touched = _
      cases config.flowControl <;> decide
    rw [line.iflag]
    exact Edit.run_eq_of_andThen apart takes.iflag.symm
  have others : ∀ t : Tty, (flowSettings config t).termios =
      { t.termios with
        cflag := (flowSettings config t).termios.cflag
        iflag := (flowSettings config t).termios.iflag } := fun t => by
    unfold flowSettings Tty.tcsetattr flowOptions
    cases config.flowControl <;> rfl
  have termios : (lineSettings config tty).termios = tty.termios := by
    have rest := others (lineSettings config tty)
    rw [h] at rest
    rw [rest, ← cflag, ← iflag]
  have rest : lineSettings config tty = { tty with termios := (lineSettings config tty).termios } := rfl
  rw [rest, termios]

/-- **A device is as it was** exactly if what had been set when the configuration failed is what
it had. -/
theorem settingsAt_eq_iff (fails : Fails) (config : UartConfig) (tty : Tty) (point : Point) :
    settingsAt fails config tty point = tty ↔ Keeps fails config tty point := by
  -- the line settings and the flow control do not touch the custom speed
  have serial : ∀ settings : Tty → Tty, (∀ t, (settings t).serial = t.serial) →
      settings (speedSettings fails config tty) = tty → ¬ ClearsSpeed fails config tty :=
    fun settings same h => by
      rw [← speedSettings_serial_iff, ← same, h]
  cases point with
  | start => exact iff_of_true rfl trivial
  | speed =>
    constructor
    · exact serial id fun _ => rfl
    · exact speedSettings_eq
  | line =>
    constructor
    · intro h
      have kept := serial (lineSettings config) (fun _ => rfl) h
      rw [settingsAt, speedSettings_eq kept] at h
      exact ⟨kept, h⟩
    · rintro ⟨kept, line⟩
      rw [settingsAt, speedSettings_eq kept, line]
  | flow =>
    constructor
    · intro h
      have kept := serial (fun t => flowSettings config (lineSettings config t)) (fun _ => rfl) h
      rw [settingsAt, speedSettings_eq kept] at h
      have line := lineSettings_eq_of_flow h
      rw [line] at h
      exact ⟨kept, line, h⟩
    · rintro ⟨kept, line, flow⟩
      rw [settingsAt, speedSettings_eq kept, line, flow]

end Port

end CircuitsUart
