import CircuitsUart.Port.Uart

/-!
# Configuring an open port and opening it

What `uart_open` and `uart_configure` do to the settings of a device is a `Change`: an edit of
the control word, an edit of the input word and a rate. The settings after `uart_open` with
one configuration and `uart_configure` with another are then compared with those after
`uart_open` with the second one alone.

A change is data, so two sequences can be compared without running them on a device. `Takes` ties
it to the code: a sequence that succeeded has taken the device from one state to another by that
change. What is left of the comparison is about masks, and the answer is exact: `Forgets` says in
terms of the two configurations and the device when the first one leaves no trace.

A device that lets only some flags be set is dealt with once, in `Lib.Flags`: a change restricted
to those flags is a change.
-/

set_option autoImplicit false

namespace CircuitsUart

namespace Port

open Lib

/-! ## What the sequences change -/

structure Change where
  cflag : Edit 32
  iflag : Edit 32
  rate : Option (BitVec 32)

namespace Change

def andThen (c c' : Change) : Change where
  cflag := c.cflag.andThen c'.cflag
  iflag := c.iflag.andThen c'.iflag
  rate := c'.rate.or c.rate

/-- The device went from `tty` to `tty'` by the change. -/
structure Takes (c : Change) (tty tty' : Tty) : Prop where
  applied : tty'.applied = tty.applied
  cflag : tty'.termios.cflag = (c.cflag.restrict tty.applied).run tty.termios.cflag
  iflag : tty'.termios.iflag = c.iflag.run tty.termios.iflag
  rate : tty'.termios.ospeed =
    if tty.setsBaud then c.rate.getD tty.termios.ospeed else tty.termios.ospeed

theorem Takes.trans {c c' : Change} {t t' t'' : Tty} (h : c.Takes t t') (h' : c'.Takes t' t'') :
    (c.andThen c').Takes t t'' where
  applied := h'.applied.trans h.applied
  cflag := by
    rw [h'.cflag, h.cflag, h.applied, andThen, Edit.restrict_andThen, Edit.run_andThen]
  iflag := by rw [h'.iflag, h.iflag, andThen, Edit.run_andThen]
  rate := by
    have sets : t'.setsBaud = t.setsBaud := by rw [Tty.setsBaud, Tty.setsBaud, h.applied]
    rw [h'.rate, h.rate, sets]
    split
    · cases hr : c'.rate <;> simp [andThen, hr]
    · rfl

end Change

/-- `uart_config_line`. -/
def lineChange (config : UartConfig) : Change := ⟨lineEdit config, ⟨ICRNL ||| INLCR, 0#32⟩, none⟩

/-- `uart_config_flowcontrol`. -/
def flowChange : FlowControl → Change
  | .none => ⟨⟨CRTSCTS, 0#32⟩, ⟨IXON ||| IXOFF ||| IXANY, 0#32⟩, none⟩
  | .hardware => ⟨⟨0#32, CRTSCTS⟩, ⟨IXON ||| IXOFF ||| IXANY, 0#32⟩, none⟩
  | .software => ⟨⟨CRTSCTS, 0#32⟩, ⟨0#32, IXON ||| IXOFF ||| IXANY⟩, none⟩

/-- `set_custom_speed`. -/
def customEdit : Edit 32 := ⟨CBAUD, BOTHER⟩

def speedChange (speed : Int) : Change := ⟨customEdit, .nothing, some (BitVec.ofInt 32 speed)⟩

def noChange : Change := ⟨.nothing, .nothing, none⟩

/-- `uart_configure`. -/
def configureChange (config : UartConfig) : Change :=
  (lineChange config).andThen (flowChange config.flowControl)

/-- `uart_open`. -/
def openChange (config : UartConfig) : Change :=
  (configureChange config).andThen
    (if isCustomSpeed config.speed then speedChange config.speed else noChange)

/-! ### The functions take these changes -/

theorem noChange_takes {tty tty' : Tty} (termios : tty'.termios = tty.termios)
    (applied : tty'.applied = tty.applied) : noChange.Takes tty tty' where
  applied := applied
  cflag := by simp [noChange, termios]
  iflag := by simp [noChange, termios]
  rate := by simp [noChange, termios]

/-- The device after the `tcsetattr` of `uart_config_line`. -/
def lineSettings (config : UartConfig) (tty : Tty) : Tty :=
  tty.tcsetattr (lineOptions config tty.termios)

/-- The device after the one of `uart_config_flowcontrol`. -/
def flowSettings (config : UartConfig) (tty : Tty) : Tty :=
  tty.tcsetattr (flowOptions config.flowControl tty.termios)

theorem lineSettings_takes (config : UartConfig) (tty : Tty) :
    (lineChange config).Takes tty (lineSettings config tty) := by
  refine ⟨rfl, ?_, ?_, ?_⟩
  · show Lib.applied tty.applied tty.termios.cflag _ = _
    rw [lineOptions_cflag, applied_run]
    rfl
  · simp [lineSettings, Tty.tcsetattr, lineOptions, lineChange]
  · simp [lineSettings, Tty.tcsetattr, lineChange]

theorem flowSettings_takes (config : UartConfig) (tty : Tty) :
    (flowChange config.flowControl).Takes tty (flowSettings config tty) := by
  unfold flowSettings
  generalize config.flowControl = flowControl
  refine ⟨rfl, ?_, ?_, ?_⟩
  · dsimp only [Tty.tcsetattr]
    rw [← applied_run]
    cases flowControl <;> simp [flowOptions, flowChange]
  · cases flowControl <;> simp [Tty.tcsetattr, flowOptions, flowChange]
  · cases flowControl <;> simp [Tty.tcsetattr, flowOptions, flowChange]

theorem uartConfigLine_takes {fails : Fails} {config : UartConfig} {d d' : Dev}
    (h : uartConfigLine fails config d = (true, d')) : (lineChange config).Takes d.tty d'.tty := by
  obtain ⟨termios, applied, -⟩ := uartConfigLine_eq_true h
  have takes := lineSettings_takes config d.tty
  refine ⟨applied, ?_, ?_, ?_⟩
  · rw [termios]
    exact takes.cflag
  · rw [termios]
    exact takes.iflag
  · rw [termios]
    exact takes.rate

theorem uartConfigFlowcontrol_takes {fails : Fails} {config : UartConfig} {d d' : Dev}
    (h : uartConfigFlowcontrol fails config d = (true, d')) :
    (flowChange config.flowControl).Takes d.tty d'.tty := by
  have h := Dev.attempt_eq_true (Dev.attempt_eq_true h)
  obtain ⟨-, rfl⟩ := Prod.mk.inj h
  exact flowSettings_takes config d.tty

theorem setCustomSpeed_takes {fails : Fails} {speed : Int} {d d' : Dev}
    (h : setCustomSpeed fails speed d = (true, d')) : (speedChange speed).Takes d.tty d'.tty := by
  have h := Dev.attempt_eq_true (Dev.attempt_eq_true h)
  obtain ⟨-, rfl⟩ := Prod.mk.inj h
  refine ⟨rfl, ?_, ?_, rfl⟩
  · dsimp only [Tty.tcsets2]
    rw [← applied_run]
    rfl
  · simp [Tty.tcsets2, speedOptions, speedChange]

theorem uartConfigRs485_takes {fails : Fails} {config : UartConfig} {d d' : Dev}
    (h : uartConfigRs485 fails config d = (true, d')) : noChange.Takes d.tty d'.tty := by
  unfold uartConfigRs485 at h
  split at h
  · have h := Dev.attempt_eq_true (Dev.attempt_eq_true h)
    obtain ⟨-, rfl⟩ := Prod.mk.inj h
    exact noChange_takes rfl rfl
  · obtain ⟨-, rfl⟩ := Prod.mk.inj h
    exact noChange_takes rfl rfl

theorem Change.andThen_noChange (c : Change) : c.andThen noChange = c := by
  simp [andThen, noChange]

theorem openDevice_takes {fails : Fails} {config : UartConfig} {d d' : Dev}
    (h : openDevice fails config d = (true, d')) : (openChange config).Takes d.tty d'.tty := by
  obtain ⟨d₁, hline, h⟩ := andThen_eq_true (Dev.attempt_eq_true h)
  obtain ⟨d₂, hflow, h⟩ := andThen_eq_true h
  obtain ⟨d₃, hspeed, h⟩ := andThen_eq_true h
  obtain ⟨d₄, hrs485, h⟩ := andThen_eq_true h
  have flushed : d'.tty = d₄.tty := by
    obtain ⟨-, rfl⟩ := Prod.mk.inj h
    unfold Dev.attempt
    cases fails .tcflush <;> rfl
  have speed : (if isCustomSpeed config.speed then speedChange config.speed else noChange).Takes
      d₂.tty d₃.tty := by
    split at hspeed
    · next custom =>
      rw [if_pos custom]
      exact setCustomSpeed_takes hspeed
    · next known =>
      rw [if_neg known]
      obtain ⟨-, rfl⟩ := Prod.mk.inj hspeed
      exact noChange_takes rfl rfl
  have all := (((uartConfigLine_takes hline).trans (uartConfigFlowcontrol_takes hflow)).trans
    speed).trans (uartConfigRs485_takes hrs485)
  rw [Change.andThen_noChange] at all
  rw [flushed]
  exact all

theorem configureDevice_takes {fails : Fails} {config : UartConfig} {d d' : Dev}
    (h : configureDevice fails config d = (true, d')) :
    (configureChange config).Takes d.tty d'.tty := by
  obtain ⟨d₁, hline, h⟩ := andThen_eq_true h
  obtain ⟨d₂, hflow, h⟩ := andThen_eq_true h
  have all := ((uartConfigLine_takes hline).trans (uartConfigFlowcontrol_takes hflow)).trans
    (uartConfigRs485_takes h)
  rw [Change.andThen_noChange] at all
  exact all

/-! ## The bits they touch -/

/-- The parity bits a parity decides. -/
def decides : Parity → Flags
  | .none => PARENB
  | .even | .odd => PARENB ||| PARODD
  | .space | .mark => PARITY
  | .ignore => 0

/-- The bits every configuration decides. -/
abbrev ALWAYS : Flags := CBAUD ||| CSIZE ||| CSTOPB ||| CLOCAL ||| CREAD ||| CRTSCTS

theorem lineEdit_touched (config : UartConfig) : (lineEdit config).touched =
    CBAUD ||| CSIZE ||| CSTOPB ||| (parityEdit config.parity).touched ||| (CLOCAL ||| CREAD) := by
  have baud : (Edit.mk CBAUD (lineBaud config.speed)).touched = CBAUD := by
    rw [Edit.touched, or_eq_self_iff, BitVec.and_comm]
    exact lineBaud_and_cbaud config.speed
  have size : (Edit.mk CSIZE (toDatabitsConstant config.dataBits)).touched = CSIZE := by
    rw [Edit.touched, or_eq_self_iff, BitVec.and_comm]
    exact toDatabitsConstant_and_csize config.dataBits
  have stop : (stopEdit config.stopBits).touched = CSTOPB := by
    unfold stopEdit
    split <;> rfl
  have others : (Edit.mk 0#32 (CLOCAL ||| CREAD)).touched = CLOCAL ||| CREAD := rfl
  simp only [lineEdit, Edit.touched_andThen, baud, size, stop, others]

theorem flowChange_touched (flowControl : FlowControl) :
    (flowChange flowControl).cflag.touched = CRTSCTS := by
  cases flowControl <;> rfl

theorem configureChange_touched (config : UartConfig) :
    (configureChange config).cflag.touched = ALWAYS ||| decides config.parity := by
  simp only [configureChange, Change.andThen, lineChange, Edit.touched_andThen, lineEdit_touched,
    flowChange_touched]
  cases config.parity <;> decide

theorem openChange_touched (config : UartConfig) :
    (openChange config).cflag.touched = ALWAYS ||| decides config.parity := by
  simp only [openChange, Change.andThen, Edit.touched_andThen, configureChange_touched]
  have custom : ∀ p, ALWAYS ||| decides p ||| customEdit.touched = ALWAYS ||| decides p := by
    intro p
    cases p <;> decide
  split
  · exact custom config.parity
  · cases config.parity <;> decide

theorem configureChange_run_and_parity (config : UartConfig) (w : Flags) :
    (configureChange config).cflag.run w &&& PARITY = setParity w config.parity &&& PARITY := by
  have flow : ∀ w : Flags, (flowChange config.flowControl).cflag.run w &&& PARITY = w &&& PARITY :=
    fun w => by
      cases config.flowControl <;> exact Edit.run_and_of_untouched _ _ (by decide) (by decide)
  rw [configureChange, Change.andThen, Edit.run_andThen, flow, lineChange, lineEdit_run_and_parity,
    setParity_eq_run]

theorem openChange_run_and_parity (config : UartConfig) (w : Flags) :
    (openChange config).cflag.run w &&& PARITY = setParity w config.parity &&& PARITY := by
  have speed : ∀ w : Flags, (if isCustomSpeed config.speed then speedChange config.speed
      else noChange).cflag.run w &&& PARITY = w &&& PARITY := fun w => by
    split
    · exact customEdit.run_and_of_untouched _ (by decide) (by decide)
    · rw [noChange, Edit.run_nothing]
  rw [openChange, Change.andThen, Edit.run_andThen, speed, configureChange_run_and_parity]

/-- The baud bits asked for by `uart_configure`, and by `uart_open`. -/
theorem configureChange_run_and_cbaud (config : UartConfig) (w : Flags) :
    (configureChange config).cflag.run w &&& CBAUD =
      lineBaud config.speed ||| (ignored config.parity &&& CBAUD) := by
  have flow : ∀ w : Flags, (flowChange config.flowControl).cflag.run w &&& CBAUD = w &&& CBAUD :=
    fun w => by
      cases config.flowControl <;> exact Edit.run_and_of_untouched _ _ (by decide) (by decide)
  rw [configureChange, Change.andThen, Edit.run_andThen, flow, lineChange, lineEdit_run_and_cbaud]

theorem openChange_run_and_cbaud (config : UartConfig) (w : Flags) :
    (openChange config).cflag.run w &&& CBAUD =
      if isCustomSpeed config.speed then BOTHER
      else lineBaud config.speed ||| (ignored config.parity &&& CBAUD) := by
  rw [openChange, Change.andThen, Edit.run_andThen]
  split
  · exact customEdit.run_and_of_cleared _ (by decide)
  · rw [noChange, Edit.run_nothing, configureChange_run_and_cbaud]

/-! ## Opening and then configuring, against opening -/

section Compare

variable (tty : Tty) (c₀ c : UartConfig)

/-- The parity bits that only the first configuration decides, where the device lets them be
set. -/
def leftAlone : Flags := decides c₀.parity &&& ~~~decides c.parity &&& tty.applied

theorem configured_eq_iff :
    (((openChange c₀).cflag.andThen (configureChange c).cflag).restrict tty.applied).run
        tty.termios.cflag =
      ((configureChange c).cflag.restrict tty.applied).run tty.termios.cflag ↔
    setParity tty.termios.cflag c₀.parity &&& leftAlone tty c₀ c =
      tty.termios.cflag &&& leftAlone tty c₀ c := by
  have mask : (openChange c₀).cflag.touched &&& ~~~(configureChange c).cflag.touched =
      decides c₀.parity &&& ~~~decides c.parity := by
    rw [openChange_touched, configureChange_touched]
    cases c₀.parity <;> cases c.parity <;> decide
  have sub : leftAlone tty c₀ c &&& PARITY = leftAlone tty c₀ c := by
    have inner : PARITY &&& (decides c₀.parity &&& ~~~decides c.parity) =
        decides c₀.parity &&& ~~~decides c.parity := by
      cases c₀.parity <;> cases c.parity <;> decide
    rw [leftAlone, BitVec.and_comm, ← BitVec.and_assoc, inner]
  have parity := and_eq_of_subset (openChange_run_and_parity c₀ tty.termios.cflag) sub
  rw [Edit.restrict_andThen_eq_iff, mask]
  rw [← leftAlone, parity]

theorem opened_eq (same : isCustomSpeed c.speed = true → tty.applied &&& CBAUD = 0#32) (w : Flags) :
    ((openChange c).cflag.restrict tty.applied).run w =
      ((configureChange c).cflag.restrict tty.applied).run w := by
  rw [openChange, Change.andThen, Edit.restrict_andThen, Edit.run_andThen]
  split
  · next custom =>
    have none_applied : CBAUD &&& tty.applied = 0#32 := by
      rw [BitVec.and_comm, same custom]
    have nothing : (speedChange c.speed).cflag.restrict tty.applied = .nothing := by
      rw [speedChange, customEdit, Edit.restrict, none_applied,
        and_eq_zero_of_subset (show BOTHER &&& CBAUD = BOTHER by decide) none_applied]
      rfl
    rw [nothing, Edit.run_nothing]
  · rw [noChange, Edit.restrict_nothing, Edit.run_nothing]

theorem iflag_eq (w : Flags) :
    ((openChange c₀).iflag.andThen (configureChange c).iflag).run w = (openChange c).iflag.run w := by
  have opened : ∀ c : UartConfig, (openChange c).iflag = (configureChange c).iflag := fun c => by
    rw [openChange, Change.andThen]
    split <;> exact Edit.andThen_nothing _
  rw [opened, opened, Edit.run_andThen_eq_iff]
  have mask : (configureChange c₀).iflag.touched &&& ~~~(configureChange c).iflag.touched = 0#32 := by
    simp only [configureChange, Change.andThen, lineChange]
    cases c₀.flowControl <;> cases c.flowControl <;> decide
  rw [mask]
  simp

end Compare

/-- Two settings with the same line speed, control flags and input flags. -/
structure SameLine (t t' : Termios) : Prop where
  speed : t.speed = t'.speed
  cflag : t.cflag = t'.cflag
  iflag : t.iflag = t'.iflag

/-- Nothing of `c₀` is left when `c` is configured over it. -/
structure Forgets (tty : Tty) (c₀ c : UartConfig) : Prop where
  speed : isCustomSpeed c.speed = true → tty.applied &&& CBAUD = 0#32
  parity : setParity tty.termios.cflag c₀.parity &&& leftAlone tty c₀ c =
    tty.termios.cflag &&& leftAlone tty c₀ c

/-- The baud bits are the same after `c` is configured over `c₀`, which has its speed. -/
structure KeepsSpeed (tty : Tty) (c₀ c : UartConfig) : Prop where
  custom : isCustomSpeed c.speed = true → tty.applied &&& CBAUD = 0#32
  ignore : isCustomSpeed c.speed = false →
    (c.parity = .ignore ↔ c₀.parity = .ignore) ∨ lineBaud c.speed &&& IGNPAR = IGNPAR ∨
      tty.applied &&& IGNPAR = 0#32

theorem lineBaud_of_custom {speed : Int} (h : isCustomSpeed speed = true) :
    lineBaud speed = B38400 := by
  rw [lineBaud, Option.isNone_iff_eq_none.mp h]
  rfl

/-- A known speed never asks for `BOTHER`. -/
theorem lineBaud_ne_bother {speed : Int} (h : isCustomSpeed speed = false) (p : Parity) :
    lineBaud speed ||| (ignored p &&& CBAUD) ≠ BOTHER := by
  obtain ⟨b, hb⟩ := Option.isSome_iff_exists.mp (Option.isNone_eq_false_iff.mp h)
  obtain ⟨-, ne, ne'⟩ := toBaudrateConstant_cases hb
  have bits : (IGNPAR ||| ISTRIP) &&& CBAUD = IGNPAR := by decide
  rw [lineBaud, hb, ignored]
  split
  · rw [bits]
    exact ne'
  · simpa using ne

/-- A custom speed is asked for as `B38400`, which on a device that sets any of the baud bits
is another speed. -/
theorem custom_baud_eq {tty : Tty} {c : UartConfig} (custom : isCustomSpeed c.speed = true)
    (h : (lineBaud c.speed ||| (ignored c.parity &&& CBAUD)) &&& tty.applied =
      BOTHER &&& tty.applied) : tty.applied &&& CBAUD = 0#32 := by
  have asked : lineBaud c.speed ||| (ignored c.parity &&& CBAUD) = B38400 := by
    rw [lineBaud_of_custom custom, ignored]
    split <;> decide
  rw [asked] at h
  have := or_and_eq_zero (show B38400 &&& BOTHER = 0#32 by decide) h
  rw [BitVec.and_comm]
  exact this

section Takes

variable {tty t₁ t₂ t₃ : Tty} {c₀ c : UartConfig}

theorem sameLine_iff (hopen : (openChange c₀).Takes tty t₁)
    (hconfigure : (configureChange c).Takes t₁ t₂) (halone : (openChange c).Takes tty t₃) :
    SameLine t₂.termios t₃.termios ↔ Forgets tty c₀ c := by
  have both := hopen.trans hconfigure
  have cflag₂ : t₂.termios.cflag = (((openChange c₀).cflag.andThen
      (configureChange c).cflag).restrict tty.applied).run tty.termios.cflag := both.cflag
  have known : (isCustomSpeed c.speed = true → tty.applied &&& CBAUD = 0#32) →
      (t₂.termios.cflag = t₃.termios.cflag ↔
        setParity tty.termios.cflag c₀.parity &&& leftAlone tty c₀ c =
          tty.termios.cflag &&& leftAlone tty c₀ c) := fun same => by
    rw [cflag₂, halone.cflag, opened_eq tty c same, configured_eq_iff]
  constructor
  · rintro ⟨-, cflag, -⟩
    have same : isCustomSpeed c.speed = true → tty.applied &&& CBAUD = 0#32 := by
      intro custom
      have baud : t₂.termios.cflag &&& CBAUD = t₃.termios.cflag &&& CBAUD := by rw [cflag]
      rw [cflag₂, halone.cflag, ← applied_run, ← applied_run, applied_and_eq_iff,
        Edit.run_andThen, configureChange_run_and_cbaud, openChange_run_and_cbaud,
        if_pos custom] at baud
      exact custom_baud_eq custom baud
    exact ⟨same, (known same).mp cflag⟩
  · rintro ⟨same, parity⟩
    have cflag := (known same).mpr parity
    refine ⟨Termios.speed_eq (by rw [cflag]) ?_, cflag, ?_⟩
    · intro bother
      have unset : tty.setsBaud = false := by
        by_contra sets
        have all : tty.applied &&& CBAUD = CBAUD := by simpa [Tty.setsBaud] using sets
        cases hc : isCustomSpeed c.speed with
        | true => exact absurd (all.symm.trans (same hc)) (by decide)
        | false =>
          rw [cflag, halone.cflag, ← applied_run, applied_and_of_subset all,
            openChange_run_and_cbaud, if_neg (by simp [hc])] at bother
          exact absurd bother (lineBaud_ne_bother hc c.parity)
      rw [both.rate, halone.rate, unset]
      rfl
    · rw [both.iflag, halone.iflag]
      exact iflag_eq c₀ c tty.termios.iflag

/-- Asking for the bit of `:ignore` as well makes a difference unless the bit is asked for
anyway or is not applied. -/
theorem or_ignpar_and_iff (b m : Flags) :
    (b ||| IGNPAR) &&& m = b &&& m ↔ b &&& IGNPAR = IGNPAR ∨ m &&& IGNPAR = 0#32 := by
  have one_bit : m &&& IGNPAR = 0#32 ∨ m &&& IGNPAR = IGNPAR := by
    rw [show IGNPAR = BitVec.twoPow 32 2 by decide, BitVec.and_twoPow]
    split
    · exact .inr rfl
    · exact .inl rfl
  rw [BitVec.and_or_distrib_right, BitVec.and_comm IGNPAR]
  rcases one_bit with unset | set
  · simp [unset]
  · have ne : ¬ IGNPAR = 0#32 := by decide
    rw [set, or_eq_self_iff, BitVec.and_assoc, set, or_iff_left ne]

/-- Two parities ask for the same baud bits of a known speed iff the bit of `:ignore` is in
both, in the speed, or not applied. -/
theorem ignored_baud_iff (b m : Flags) (p₀ p : Parity) :
    (b ||| (ignored p &&& CBAUD)) &&& m = (b ||| (ignored p₀ &&& CBAUD)) &&& m ↔
      (p = .ignore ↔ p₀ = .ignore) ∨ b &&& IGNPAR = IGNPAR ∨ m &&& IGNPAR = 0#32 := by
  have asked : ∀ p, ignored p &&& CBAUD = if p = .ignore then IGNPAR else 0#32 := fun p => by
    cases p <;> decide
  rw [asked, asked]
  by_cases hp : p = .ignore <;> by_cases hp₀ : p₀ = .ignore
  · simp [hp, hp₀]
  · rw [if_pos hp, if_neg hp₀, BitVec.or_zero, or_ignpar_and_iff]
    simp only [hp, hp₀, iff_false, not_true, false_or]
  · rw [if_neg hp, if_pos hp₀, BitVec.or_zero, eq_comm, or_ignpar_and_iff]
    simp only [hp, hp₀, iff_true, false_or]
  · simp [hp, hp₀]

theorem keepsSpeed_iff (hopen : (openChange c₀).Takes tty t₁)
    (hconfigure : (configureChange c).Takes t₁ t₂) (same : c.speed = c₀.speed) :
    t₂.termios.speed = t₁.termios.speed ↔ KeepsSpeed tty c₀ c := by
  have both := hopen.trans hconfigure
  have cflag₂ : t₂.termios.cflag = (((openChange c₀).cflag.andThen
      (configureChange c).cflag).restrict tty.applied).run tty.termios.cflag := both.cflag
  have rate : t₂.termios.ospeed = t₁.termios.ospeed := by
    rw [hconfigure.rate]
    have none_given : (configureChange c).rate = none := by
      simp only [configureChange, Change.andThen, lineChange]
      cases c.flowControl <;> rfl
    rw [none_given]
    simp
  have speed_iff : t₂.termios.speed = t₁.termios.speed ↔
      t₂.termios.cflag &&& CBAUD = t₁.termios.cflag &&& CBAUD :=
    ⟨Termios.baud_eq_of_speed_eq, fun h => Termios.speed_eq h fun _ => rate⟩
  rw [speed_iff, cflag₂, hopen.cflag, ← applied_run, ← applied_run, applied_and_eq_iff,
    Edit.run_andThen, configureChange_run_and_cbaud, openChange_run_and_cbaud, ← same]
  cases hc : isCustomSpeed c.speed with
  | true =>
    rw [if_pos rfl]
    constructor
    · intro h
      exact ⟨fun _ => custom_baud_eq hc h, fun known => absurd (hc.symm.trans known) (by simp)⟩
    · intro h
      have unset := h.custom hc
      have outside : ∀ b : Flags, b &&& CBAUD = b → b &&& tty.applied = 0#32 := fun b hb =>
        and_eq_zero_of_subset hb (by rw [BitVec.and_comm, unset])
      rw [outside BOTHER (by decide), outside]
      rw [BitVec.and_or_distrib_right, lineBaud_and_cbaud, BitVec.and_assoc, BitVec.and_self]
  | false =>
    rw [if_neg (by simp), ignored_baud_iff]
    exact ⟨fun h => ⟨fun custom => absurd (hc.symm.trans custom) (by simp), fun _ => h⟩,
      fun h => h.ignore hc⟩

end Takes

end Port

open Port

namespace Program

variable {β : Type}

/-- `open` finds the device `tty` under `name`. -/
def Finds (os : Os β) (name : List UInt8) (tty : Tty) : Prop :=
  ∃ path fd, nameToDeviceFile os name = some path ∧ os.opened path = .ok (fd, tty)

theorem uartOpen_takes {os : Os β} {name : List UInt8} {tty : Tty} {config : UartConfig}
    {p p' : Program β} (finds : Finds os name tty) (h : uartOpen os name config p = (true, p')) :
    p'.uart.fd ≠ none ∧ (openChange config).Takes tty p'.dev.tty := by
  obtain ⟨path, fd, hpath, hopened⟩ := finds
  simp only [uartOpen, hpath, hopened] at h
  split at h
  · next dev hdev =>
    obtain ⟨-, rfl⟩ := Prod.mk.inj h
    exact ⟨by simp, openDevice_takes hdev⟩
  · exact absurd h (by simp)

theorem uartConfigure_takes {os : Os β} {config : UartConfig} {p p' : Program β}
    (isOpen : p.uart.fd ≠ none) (h : uartConfigure os config p = .ok (true, p')) :
    (configureChange config).Takes p.dev.tty p'.dev.tty := by
  unfold uartConfigure at h
  split at h
  · exact absurd h (by simp)
  · dsimp only at h
    split at h
    · next hfd => exact absurd hfd isOpen
    · split at h
      · next dev hdev =>
        obtain ⟨-, rfl⟩ := Prod.mk.inj (Except.ok.inj h)
        exact configureDevice_takes hdev
      · exact absurd h (by simp)

/-- **Configuring an open port leaves what opening it would, but for a custom speed and the
parity bits that are left alone**; and options that do not mention `:speed` keep the speed,
but for a custom one and the bit of `:ignore`. -/
theorem uartConfigure_uartOpen {os os₁ os₂ : Os β} {name name₂ : List UInt8} {tty : Tty}
    {c₀ c : UartConfig} {p p₁ p₂ q q₁ : Program β} (finds : Finds os name tty)
    (finds₂ : Finds os₂ name₂ tty) (hopen : uartOpen os name c₀ p = (true, p₁))
    (hconfigure : uartConfigure os₁ c p₁ = .ok (true, p₂))
    (alone : uartOpen os₂ name₂ c q = (true, q₁)) :
    (SameLine p₂.dev.tty.termios q₁.dev.tty.termios ↔ Forgets tty c₀ c) ∧
    ∀ (current : UartConfig) (opts : List UartOption), current.speed = c₀.speed →
      (∀ o ∈ opts, o.speed? = none) → configure current opts = some c →
      (p₂.dev.tty.termios.speed = p₁.dev.tty.termios.speed ↔ KeepsSpeed tty c₀ c) := by
  obtain ⟨isOpen, opened⟩ := uartOpen_takes finds hopen
  have configured := uartConfigure_takes isOpen hconfigure
  refine ⟨sameLine_iff opened configured (uartOpen_takes finds₂ alone).2, ?_⟩
  intro current opts speed unmentioned hopts
  exact keepsSpeed_iff opened configured ((configure_speed hopts unmentioned).trans speed)

/-- An operating system that opens `tty` and whose calls all succeed. -/
def obliging (tty : Tty) : Os β := { opened := fun _ => .ok (3, tty) }

theorem finds_obliging (tty : Tty) : Finds (obliging tty : Os UInt8) ttyS0 tty :=
  ⟨_, 3, rfl, rfl⟩

/-- The default configuration at another speed. -/
def atSpeed (speed : Int) : UartConfig := { uartDefaultConfig with speed := speed }

/-- The program after `uart_open` with `c₀`, on a raw device. -/
def openedWith (c₀ : UartConfig) : Program UInt8 := (uartOpen (obliging .raw) ttyS0 c₀ {}).2

/-- The program after `uart_configure` with `c`. -/
def configuredWith (c₀ c : UartConfig) : Program UInt8 :=
  { openedWith c₀ with dev := (configureDevice (fun _ => none) c (openedWith c₀).dev).2 }

/-- 9600 baud configured over 115200 is 9600 baud. -/
theorem uartConfigure_uartOpen_knownSpeed :
    SameLine (configuredWith (atSpeed 115200) (atSpeed 9600)).dev.tty.termios
      (openedWith (atSpeed 9600)).dev.tty.termios :=
  have hopen : uartOpen (obliging .raw) ttyS0 (atSpeed 115200) {} =
      (true, openedWith (atSpeed 115200)) := Prod.ext (by decide) rfl
  have hconfigure : uartConfigure (obliging .raw) (atSpeed 9600) (openedWith (atSpeed 115200)) =
      .ok (true, configuredWith (atSpeed 115200) (atSpeed 9600)) := rfl
  have alone : uartOpen (obliging .raw) ttyS0 (atSpeed 9600) ({} : Program UInt8) =
      (true, openedWith (atSpeed 9600)) := Prod.ext (by decide) rfl
  (uartConfigure_uartOpen (finds_obliging .raw) (finds_obliging .raw) hopen hconfigure alone).1.mpr
    ⟨by decide, by decide⟩

/-- A port opened at 250000 baud and configured without a word about the speed is at 38400. -/
theorem not_keepsSpeed_custom :
    uartOpen (obliging .raw) ttyS0 (atSpeed 250000) {} = (true, openedWith (atSpeed 250000)) ∧
    uartConfigure (obliging .raw) (atSpeed 250000) (openedWith (atSpeed 250000)) =
      .ok (true, configuredWith (atSpeed 250000) (atSpeed 250000)) ∧
    (openedWith (atSpeed 250000)).dev.tty.termios.speed = .rate 250000 ∧
    (configuredWith (atSpeed 250000) (atSpeed 250000)).dev.tty.termios.speed = .code B38400 ∧
    ¬ SameLine (configuredWith (atSpeed 250000) (atSpeed 250000)).dev.tty.termios
      (openedWith (atSpeed 250000)).dev.tty.termios :=
  ⟨Prod.ext (by decide) rfl, rfl, by decide, by decide, fun h => absurd h.speed (by decide)⟩

end Program

end CircuitsUart
