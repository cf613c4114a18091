import CircuitsUart.Port.Reconfigure

/-!
# Whether an opened port is transparent

`uart_open` sets the output and the local flags of the device to 0, but edits the input flags
the device was left with. It clears those that translate carriage returns into line feeds and
back, and those of software flow control; four more that change or drop received bytes it
never mentions.

So whether bytes come through unharmed depends on who had the device before. `Transparent` is
stated of the settings after the open, with all the flags under which the terminal driver drops,
alters or interprets what is received; the theorem says which four of them must have been clear
before. It uses nothing but the change that `uart_open` is (`Port.Reconfigure`).
-/

set_option autoImplicit false

namespace CircuitsUart

namespace Port

open Lib

/-- The input flags under which received bytes are dropped, altered or interpreted. -/
abbrev RECEIVED : Flags := INLCR ||| ICRNL ||| IGNCR ||| ISTRIP ||| IUCLC ||| PARMRK ||| IXON ||| IXOFF

/-- No flag is set that changes what is sent or received. -/
structure Transparent (t : Termios) : Prop where
  oflag : t.oflag = 0
  lflag : t.lflag = 0
  iflag : t.iflag &&& RECEIVED = 0

/-- The output and the local flags are 0. -/
def Plain (t : Termios) : Prop := t.oflag = 0 ∧ t.lflag = 0

theorem uartConfigLine_plain {fails : Fails} {config : UartConfig} {d d' : Dev}
    (h : uartConfigLine fails config d = (true, d')) : Plain d'.tty.termios := by
  rw [(uartConfigLine_eq_true h).1]
  exact ⟨rfl, rfl⟩

theorem uartConfigFlowcontrol_plain {fails : Fails} {config : UartConfig} {d d' : Dev}
    (h : uartConfigFlowcontrol fails config d = (true, d')) (plain : Plain d.tty.termios) :
    Plain d'.tty.termios := by
  have h := Dev.attempt_eq_true (Dev.attempt_eq_true h)
  obtain ⟨-, rfl⟩ := Prod.mk.inj h
  cases hflow : config.flowControl with
  | none => exact plain
  | hardware => exact plain
  | software => exact plain

theorem setCustomSpeed_plain {fails : Fails} {speed : Int} {d d' : Dev}
    (h : setCustomSpeed fails speed d = (true, d')) (plain : Plain d.tty.termios) :
    Plain d'.tty.termios := by
  have h := Dev.attempt_eq_true (Dev.attempt_eq_true h)
  obtain ⟨-, rfl⟩ := Prod.mk.inj h
  exact plain

theorem uartConfigRs485_plain {fails : Fails} {config : UartConfig} {d d' : Dev}
    (h : uartConfigRs485 fails config d = (true, d')) (plain : Plain d.tty.termios) :
    Plain d'.tty.termios := by
  unfold uartConfigRs485 at h
  split at h
  · have h := Dev.attempt_eq_true (Dev.attempt_eq_true h)
    obtain ⟨-, rfl⟩ := Prod.mk.inj h
    exact plain
  · obtain ⟨-, rfl⟩ := Prod.mk.inj h
    exact plain

theorem openDevice_plain {fails : Fails} {config : UartConfig} {d d' : Dev}
    (h : openDevice fails config d = (true, d')) : Plain d'.tty.termios := by
  obtain ⟨d₁, hline, h⟩ := andThen_eq_true (Dev.attempt_eq_true h)
  obtain ⟨d₂, hflow, h⟩ := andThen_eq_true h
  obtain ⟨d₃, hspeed, h⟩ := andThen_eq_true h
  obtain ⟨d₄, hrs485, h⟩ := andThen_eq_true h
  have flushed : d'.tty = d₄.tty := by
    obtain ⟨-, rfl⟩ := Prod.mk.inj h
    unfold Dev.attempt
    cases fails .tcflush <;> rfl
  rw [flushed]
  apply uartConfigRs485_plain hrs485
  have plain := uartConfigFlowcontrol_plain hflow (uartConfigLine_plain hline)
  split at hspeed
  · exact setCustomSpeed_plain hspeed plain
  · obtain ⟨-, rfl⟩ := Prod.mk.inj hspeed
    exact plain

/-- Without software flow control, opening leaves the four flags of `RECEIVED` that no function
mentions, and no others. -/
theorem openChange_received {config : UartConfig}
    (flow : config.flowControl = .none ∨ config.flowControl = .hardware) (w : Flags) :
    (openChange config).iflag.run w &&& RECEIVED = w &&& (IGNCR ||| ISTRIP ||| IUCLC ||| PARMRK) := by
  have change : (openChange config).iflag =
      ⟨ICRNL ||| INLCR ||| (IXON ||| IXOFF ||| IXANY), 0#32⟩ := by
    have speed : (if isCustomSpeed config.speed then speedChange config.speed
        else noChange).iflag = .nothing := by
      split <;> rfl
    have flowed : (flowChange config.flowControl).iflag = ⟨IXON ||| IXOFF ||| IXANY, 0#32⟩ := by
      rcases flow with flow | flow
      · rw [flow, flowChange]
      · rw [flow, flowChange]
    simp only [openChange, configureChange, Change.andThen, speed, flowed, lineChange,
      Edit.andThen_nothing]
    decide
  have left : RECEIVED &&& ~~~(ICRNL ||| INLCR ||| (IXON ||| IXOFF ||| IXANY)) =
      IGNCR ||| ISTRIP ||| IUCLC ||| PARMRK := by decide
  rw [change, Edit.run_and, left]
  simp

end Port

open Port

namespace Program

variable {β : Type}

theorem uartOpen_plain {os : Os β} {name : List UInt8} {tty : Tty} {config : UartConfig}
    {p p' : Program β} (finds : Finds os name tty) (h : uartOpen os name config p = (true, p')) :
    Plain p'.dev.tty.termios := by
  obtain ⟨path, fd, hpath, hopened⟩ := finds
  simp only [uartOpen, hpath, hopened] at h
  split at h
  · next dev hdev =>
    obtain ⟨-, rfl⟩ := Prod.mk.inj h
    exact openDevice_plain hdev
  · exact absurd h (by simp)

/-- **An opened port is as transparent as its device was.** Without software flow control, and
whatever the rest of the configuration is, no flag that changes bytes is set after `uart_open`
exactly when `IGNCR`, `ISTRIP`, `IUCLC` and `PARMRK` were not set before. -/
theorem uartOpen_transparent_iff {os : Os β} {name : List UInt8} {tty : Tty} {config : UartConfig}
    {p p' : Program β} (finds : Finds os name tty)
    (flow : config.flowControl = .none ∨ config.flowControl = .hardware)
    (h : uartOpen os name config p = (true, p')) :
    Transparent p'.dev.tty.termios ↔
      tty.termios.iflag &&& (IGNCR ||| ISTRIP ||| IUCLC ||| PARMRK) = 0 := by
  have received : p'.dev.tty.termios.iflag &&& RECEIVED =
      tty.termios.iflag &&& (IGNCR ||| ISTRIP ||| IUCLC ||| PARMRK) := by
    rw [(uartOpen_takes finds h).2.iflag]
    exact openChange_received flow _
  have plain := uartOpen_plain finds h
  constructor
  · intro transparent
    rw [← received]
    exact transparent.iflag
  · intro clear
    exact ⟨plain.1, plain.2, received.trans clear⟩

/-- A device left with these input flags, and none else. -/
def leftWith (iflag : Flags) : Tty := { Tty.raw with termios.iflag := iflag }

/-- Translations of carriage returns are undone. -/
theorem uartOpen_transparent_translating :
    Transparent (uartOpen (obliging (leftWith (ICRNL ||| INLCR))) ttyS0 uartDefaultConfig
      ({} : Program UInt8)).2.dev.tty.termios :=
  have h : uartOpen (obliging (leftWith (ICRNL ||| INLCR))) ttyS0 uartDefaultConfig
      ({} : Program UInt8) = (true, _) := Prod.ext (by decide) rfl
  (uartOpen_transparent_iff (finds_obliging _) (.inl rfl) h).mpr (by decide)

/-- A device left dropping carriage returns goes on dropping them. -/
theorem uartOpen_drops :
    ∃ p' : Program UInt8,
      uartOpen (obliging (leftWith IGNCR)) ttyS0 uartDefaultConfig {} = (true, p') ∧
      (leftWith IGNCR).applied = BitVec.allOnes 32 ∧
      uartDefaultConfig.parity = .none ∧ uartDefaultConfig.dataBits = 8 ∧
      uartDefaultConfig.flowControl = .none ∧
      p'.dev.tty.termios.iflag &&& IGNCR ≠ 0 ∧ ¬ Transparent p'.dev.tty.termios := by
  refine ⟨_, Prod.ext (by decide) rfl, rfl, rfl, rfl, rfl, by decide, fun transparent => ?_⟩
  exact absurd transparent.iflag (by decide)

end Program

end CircuitsUart
