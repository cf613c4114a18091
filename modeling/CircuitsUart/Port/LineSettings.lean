import CircuitsUart.Port.Termios
import CircuitsUart.Port.Config

/-!
# `uart_config_line`

The speed, the data bits, the stop bits and the parity of a port, edited into whatever
settings the device had. The control word is the prior one under `lineEdit`, and a call that
succeeds has read back the bits it checks.

The code first, as a chain of assignments to `c_cflag` and `c_iflag`, the way the source makes
them. Then the same as one `Edit`, from which everything else is proved: an edit can be asked
which bits it decides, and the chain cannot.

What the configuration says, what is set and what the device is left with are three things. The
source reads the third back and compares it with the second, but only in the bits of `lineMask`,
which is itself read off the word that was set. So the theorems speak of a `Line`, the settings in force
together with the speed that was asked for: custom speeds are asked for as `B38400` here, and are
the business of `Port.Device`.
-/

set_option autoImplicit false

namespace CircuitsUart.Port

open Lib

/-! ## The code -/

/-- `to_baudrate_constant`; `none` is -1. -/
def toBaudrateConstant : Int → Option Flags
  | 0 => some 0x0000
  | 50 => some 0x0001
  | 75 => some 0x0002
  | 110 => some 0x0003
  | 134 => some 0x0004
  | 150 => some 0x0005
  | 200 => some 0x0006
  | 300 => some 0x0007
  | 600 => some 0x0008
  | 1200 => some 0x0009
  | 1800 => some 0x000a
  | 2400 => some 0x000b
  | 4800 => some 0x000c
  | 9600 => some 0x000d
  | 19200 => some 0x000e
  | 38400 => some 0x000f
  | 57600 => some 0x1001
  | 115200 => some 0x1002
  | 230400 => some 0x1003
  | 460800 => some 0x1004
  | 500000 => some 0x1005
  | 576000 => some 0x1006
  | 921600 => some 0x1007
  | 1000000 => some 0x1008
  | 1152000 => some 0x1009
  | 1500000 => some 0x100a
  | 2000000 => some 0x100b
  | 2500000 => some 0x100c
  | 3000000 => some 0x100d
  | 3500000 => some 0x100e
  | 4000000 => some 0x100f
  | _ => none

/-- `to_databits_constant`. -/
def toDatabitsConstant : Int → Flags
  | 7 => CS7
  | 6 => CS6
  | 5 => CS5
  | _ => CS8

/-- `cfsetispeed` and `cfsetospeed`. -/
def cfsetspeed (cflag baud : Flags) : Flags := (cflag &&& ~~~CBAUD) ||| baud

def setDataBits (cflag : Flags) (bits : Int) : Flags :=
  (cflag &&& ~~~CSIZE) ||| toDatabitsConstant bits

def setStopBits (cflag : Flags) (bits : Int) : Flags :=
  if bits = 2 then cflag ||| CSTOPB else cflag &&& ~~~CSTOPB

/-- `switch (config->parity)`. -/
def setParity (cflag : Flags) : Parity → Flags
  | .none => cflag &&& ~~~PARENB
  | .odd => (cflag ||| PARENB) ||| PARODD
  | .even => (cflag ||| PARENB) &&& ~~~PARODD
  | .space => (cflag &&& ~~~PARODD) ||| (PARENB ||| CMSPAR)
  | .mark => cflag ||| (PARENB ||| CMSPAR ||| PARODD)
  | .ignore => cflag ||| (IGNPAR ||| ISTRIP)

/-- The baud code `uart_config_line` asks for; custom speeds take `B38400` for now. -/
def lineBaud (speed : Int) : Flags := (toBaudrateConstant speed).getD B38400

/-- The settings `uart_config_line` passes to `tcsetattr`. -/
def lineOptions (config : UartConfig) (options : Termios) : Termios :=
  let cflag := cfsetspeed options.cflag (lineBaud config.speed)
  let cflag := setDataBits cflag config.dataBits
  let cflag := setStopBits cflag config.stopBits
  let cflag := setParity cflag config.parity
  { options with
    cflag := (cflag ||| CLOCAL) ||| CREAD
    oflag := 0
    lflag := 0
    iflag := options.iflag &&& ~~~(ICRNL ||| INLCR)
    vmin := 1
    vtime := 0 }

/-- The bits `uart_config_line` reads back. -/
def lineMask (cflag : Flags) : Flags :=
  if cflag &&& PARENB ≠ 0 then CSIZE ||| CSTOPB ||| PARENB ||| PARODD ||| CMSPAR
  else CSIZE ||| CSTOPB ||| PARENB

/-- `clear_custom_speed`. -/
def clearCustomSpeed (fails : Fails) (d : Dev) : Bool × Dev :=
  d.attempt fails .serialGet fun d =>
    if d.tty.serial.flags &&& ASYNC_SPD_CUST ≠ 0 then
      d.attempt fails .serialSet fun d =>
        (true, { d with tty.serial := ⟨d.tty.serial.flags &&& ~~~ASYNC_SPD_MASK, 0⟩ })
    else (true, d)

/-- `uart_config_line`, which succeeds with `true`. -/
def uartConfigLine (fails : Fails) (config : UartConfig) (d : Dev) : Bool × Dev :=
  d.attempt fails .lineGet fun d =>
    let options := lineOptions config d.tty.termios
    let d := if (toBaudrateConstant config.speed).isSome then (clearCustomSpeed fails d).2 else d
    d.attempt fails .lineSet fun d =>
      let d := { d with tty := d.tty.tcsetattr options }
      d.attempt fails .lineCheck fun d =>
        let mask := lineMask options.cflag
        if d.tty.termios.cflag &&& mask ≠ options.cflag &&& mask then
          (false, { d with errno := .einval })
        else (true, d)

/-! ## The control word as one edit -/

theorem toBaudrateConstant_cases {speed : Int} {b : Flags} (h : toBaudrateConstant speed = some b) :
    b &&& CBAUD = b ∧ b ≠ BOTHER ∧ b ||| IGNPAR ≠ BOTHER := by
  unfold toBaudrateConstant at h
  split at h <;> cases h <;> decide

theorem lineBaud_and_cbaud (speed : Int) : lineBaud speed &&& CBAUD = lineBaud speed := by
  unfold lineBaud
  cases h : toBaudrateConstant speed with
  | none => rfl
  | some b => exact (toBaudrateConstant_cases h).1

/-- The bits the parity may change. -/
abbrev PARITY : Flags := PARENB ||| PARODD ||| CMSPAR

def stopEdit (bits : Int) : Edit 32 := if bits = 2 then ⟨0#32, CSTOPB⟩ else ⟨CSTOPB, 0#32⟩

def parityEdit : Parity → Edit 32
  | .none => ⟨PARENB, 0#32⟩
  | .odd => ⟨0#32, PARENB ||| PARODD⟩
  | .even => ⟨PARODD, PARENB⟩
  | .space => ⟨PARODD, PARENB ||| CMSPAR⟩
  | .mark => ⟨0#32, PARENB ||| CMSPAR ||| PARODD⟩
  | .ignore => ⟨0#32, IGNPAR ||| ISTRIP⟩

/-- What `uart_config_line` does to the control word. -/
def lineEdit (config : UartConfig) : Edit 32 :=
  ((((Edit.mk CBAUD (lineBaud config.speed)).andThen
    ⟨CSIZE, toDatabitsConstant config.dataBits⟩).andThen
    (stopEdit config.stopBits)).andThen
    (parityEdit config.parity)).andThen
    ⟨0#32, CLOCAL ||| CREAD⟩

theorem setStopBits_eq_run (cflag : Flags) (bits : Int) :
    setStopBits cflag bits = (stopEdit bits).run cflag := by
  unfold setStopBits stopEdit
  split
  · rw [Edit.run_setting]
  · rw [Edit.run_clearing]

theorem setParity_eq_run (cflag : Flags) (p : Parity) :
    setParity cflag p = (parityEdit p).run cflag := by
  cases p
  case even =>
    have : parityEdit .even = (Edit.mk 0#32 PARENB).andThen ⟨PARODD, 0#32⟩ := by decide
    rw [this, Edit.run_andThen, Edit.run_setting, Edit.run_clearing, setParity]
  case none => rw [parityEdit, Edit.run_clearing, setParity]
  case space => rfl
  all_goals simp only [setParity, parityEdit, Edit.run_setting, BitVec.or_assoc]

theorem lineOptions_cflag (config : UartConfig) (t : Termios) :
    (lineOptions config t).cflag = (lineEdit config).run t.cflag := by
  simp only [lineEdit, Edit.run_andThen, Edit.run_setting, lineOptions, cfsetspeed, setDataBits,
    setStopBits_eq_run, setParity_eq_run, BitVec.or_assoc]
  rfl

/-- What `:ignore` sets, which is no bit of the parity. -/
def ignored (p : Parity) : Flags := if p = .ignore then IGNPAR ||| ISTRIP else 0

/-- The parity leaves the other bits, but for what `:ignore` sets in them. -/
theorem parityEdit_run_and (p : Parity) (w : Flags) {k : Flags} (other : PARITY &&& k = 0#32) :
    (parityEdit p).run w &&& k = (w &&& k) ||| (ignored p &&& k) := by
  cases p
  case ignore =>
    rw [parityEdit, Edit.run_setting, BitVec.and_or_distrib_right]
    rfl
  all_goals
    rw [Edit.run_and_of_untouched _ _ (and_eq_zero_of_subset (by decide) other)
      (and_eq_zero_of_subset (by decide) other)]
    simp [ignored]

theorem stopEdit_run_and (bits : Int) (w : Flags) {k : Flags} (other : CSTOPB &&& k = 0#32) :
    (stopEdit bits).run w &&& k = w &&& k := by
  unfold stopEdit
  split
  · exact Edit.run_and_of_untouched _ _ BitVec.zero_and other
  · exact Edit.run_and_of_untouched _ _ other BitVec.zero_and

theorem toDatabitsConstant_and_csize (bits : Int) :
    toDatabitsConstant bits &&& CSIZE = toDatabitsConstant bits := by
  unfold toDatabitsConstant
  split <;> decide

theorem sizeEdit_run_and (bits : Int) (w : Flags) {k : Flags} (other : CSIZE &&& k = 0#32) :
    (Edit.mk CSIZE (toDatabitsConstant bits)).run w &&& k = w &&& k :=
  Edit.run_and_of_untouched _ _ other
    (and_eq_zero_of_subset (toDatabitsConstant_and_csize bits) other)

theorem baudEdit_run_and (speed : Int) (w : Flags) {k : Flags} (other : CBAUD &&& k = 0#32) :
    (Edit.mk CBAUD (lineBaud speed)).run w &&& k = w &&& k :=
  Edit.run_and_of_untouched _ _ other (and_eq_zero_of_subset (lineBaud_and_cbaud speed) other)

/-! ### The fields of the edited word -/

section Fields

variable (config : UartConfig) (w : Flags)

/-- The parity bits are what the parity makes of those there were. -/
theorem lineEdit_run_and_parity :
    (lineEdit config).run w &&& PARITY = (parityEdit config.parity).run w &&& PARITY := by
  simp only [lineEdit, Edit.run_andThen]
  rw [Edit.run_and_of_untouched _ _ BitVec.zero_and (by decide)]
  apply Edit.run_and_congr
  rw [stopEdit_run_and _ _ (by decide), sizeEdit_run_and _ _ (by decide),
    baudEdit_run_and _ _ (by decide)]

theorem lineEdit_run_and_cbaud :
    (lineEdit config).run w &&& CBAUD = lineBaud config.speed ||| (ignored config.parity &&& CBAUD) := by
  simp only [lineEdit, Edit.run_andThen]
  rw [Edit.run_and_of_untouched _ _ BitVec.zero_and (by decide), parityEdit_run_and _ _ (by decide),
    stopEdit_run_and _ _ (by decide), sizeEdit_run_and _ _ (by decide),
    Edit.run_and_of_cleared _ _ (by simp), lineBaud_and_cbaud]

theorem lineEdit_run_and_csize :
    (lineEdit config).run w &&& CSIZE =
      toDatabitsConstant config.dataBits ||| (ignored config.parity &&& CSIZE) := by
  simp only [lineEdit, Edit.run_andThen]
  rw [Edit.run_and_of_untouched _ _ BitVec.zero_and (by decide), parityEdit_run_and _ _ (by decide),
    stopEdit_run_and _ _ (by decide), Edit.run_and_of_cleared _ _ (by simp),
    toDatabitsConstant_and_csize]

theorem lineEdit_run_and_cstopb :
    (lineEdit config).run w &&& CSTOPB = if config.stopBits = 2 then CSTOPB else 0 := by
  have unignored : ignored config.parity &&& CSTOPB = 0#32 := by
    unfold ignored
    split <;> decide
  simp only [lineEdit, Edit.run_andThen]
  rw [Edit.run_and_of_untouched _ _ BitVec.zero_and (by decide), parityEdit_run_and _ _ (by decide),
    unignored, BitVec.or_zero]
  unfold stopEdit
  split
  · exact Edit.run_and_of_set _ _ (by decide)
  · exact Edit.run_and_of_cleared _ _ (by decide)

end Fields

/-! ## What a successful call leaves -/

theorem clearCustomSpeed_termios (fails : Fails) (d : Dev) :
    (clearCustomSpeed fails d).2.tty.termios = d.tty.termios ∧
      (clearCustomSpeed fails d).2.tty.applied = d.tty.applied := by
  unfold clearCustomSpeed Dev.attempt
  cases fails .serialGet with
  | some errno => exact ⟨rfl, rfl⟩
  | none =>
    dsimp only
    split
    · cases fails .serialSet <;> exact ⟨rfl, rfl⟩
    · exact ⟨rfl, rfl⟩

/-- A call that succeeds has set the options and read them back. -/
theorem uartConfigLine_eq_true {fails : Fails} {config : UartConfig} {d d' : Dev}
    (h : uartConfigLine fails config d = (true, d')) :
    d'.tty.termios = (d.tty.tcsetattr (lineOptions config d.tty.termios)).termios ∧
      d'.tty.applied = d.tty.applied ∧
      d'.tty.termios.cflag &&& lineMask (lineOptions config d.tty.termios).cflag =
        (lineOptions config d.tty.termios).cflag &&&
          lineMask (lineOptions config d.tty.termios).cflag := by
  have h := Dev.attempt_eq_true (Dev.attempt_eq_true (Dev.attempt_eq_true h))
  dsimp only at h
  obtain ⟨e, he⟩ : ∃ e, e = if (toBaudrateConstant config.speed).isSome then
      (clearCustomSpeed fails d).2 else d := ⟨_, rfl⟩
  rw [← he] at h
  have same : e.tty.termios = d.tty.termios ∧ e.tty.applied = d.tty.applied := by
    rw [he]
    split
    · exact clearCustomSpeed_termios fails d
    · exact ⟨rfl, rfl⟩
  split at h
  · exact absurd h (by simp)
  · next readBack =>
    obtain ⟨-, rfl⟩ := Prod.mk.inj h
    refine ⟨?_, same.2, not_not.mp readBack⟩
    rw [Tty.tcsetattr, Tty.tcsetattr, same.1, same.2]

theorem parity_congr {a b : Flags} (h : a &&& PARITY = b &&& PARITY) : parity a = parity b := by
  have enable : a &&& PARENB = b &&& PARENB := and_eq_of_subset h (by decide)
  have odd : a &&& PARODD = b &&& PARODD := and_eq_of_subset h (by decide)
  have space : a &&& CMSPAR = b &&& CMSPAR := and_eq_of_subset h (by decide)
  rw [parity, parity, enable, odd, space]

/-- The bits that are read back decide the size, the stop bits and the parity. -/
theorem readBack {a o : Flags} (h : a &&& lineMask o = o &&& lineMask o) :
    charSize a = charSize o ∧ stopBits a = stopBits o ∧ parity a = parity o := by
  have mask_size : CSIZE &&& lineMask o = CSIZE := by
    unfold lineMask
    split <;> decide
  have mask_stop : CSTOPB &&& lineMask o = CSTOPB := by
    unfold lineMask
    split <;> decide
  have mask_enable : PARENB &&& lineMask o = PARENB := by
    unfold lineMask
    split <;> decide
  have size : a &&& CSIZE = o &&& CSIZE := and_eq_of_subset h mask_size
  have stop : a &&& CSTOPB = o &&& CSTOPB := and_eq_of_subset h mask_stop
  have enable : a &&& PARENB = o &&& PARENB := and_eq_of_subset h mask_enable
  refine ⟨by rw [charSize, charSize, size], by rw [stopBits, stopBits, stop], ?_⟩
  by_cases parenb : o &&& PARENB = 0
  · rw [parity, if_pos (enable.trans parenb), parity, if_pos parenb]
  · apply parity_congr
    refine and_eq_of_subset h ?_
    rw [lineMask, if_pos parenb]
    decide

/-- **A call that succeeds leaves the size, the stop bits and the parity of the word it set.** -/
theorem uartConfigLine_fields {fails : Fails} {config : UartConfig} {d d' : Dev}
    (h : uartConfigLine fails config d = (true, d')) :
    charSize d'.tty.termios.cflag = charSize (lineOptions config d.tty.termios).cflag ∧
      stopBits d'.tty.termios.cflag = stopBits (lineOptions config d.tty.termios).cflag ∧
      parity d'.tty.termios.cflag = parity (lineOptions config d.tty.termios).cflag :=
  readBack (uartConfigLine_eq_true h).2.2

/-! ## As asked -/

/-- The parity after the edit. `:even` and `:odd` leave the bit that makes `:space` and
`:mark` of them, and `:ignore` leaves all three. -/
theorem parity_lineEdit (config : UartConfig) (w : Flags) :
    parity ((lineEdit config).run w) =
      match config.parity with
      | .none => .none
      | .even => if w &&& CMSPAR = 0 then .even else .space
      | .odd => if w &&& CMSPAR = 0 then .odd else .mark
      | .space => .space
      | .mark => .mark
      | .ignore => parity w := by
  rw [parity_congr (lineEdit_run_and_parity config w)]
  cases config.parity
  case none =>
    have enable : (parityEdit .none).run w &&& PARENB = 0 := Edit.run_and_of_cleared _ _ (by decide)
    rw [parity, enable]
    rfl
  case even =>
    have enable : (parityEdit .even).run w &&& PARENB = PARENB := Edit.run_and_of_set _ _ (by decide)
    have odd : (parityEdit .even).run w &&& PARODD = 0 := Edit.run_and_of_cleared _ _ (by decide)
    have space : (parityEdit .even).run w &&& CMSPAR = w &&& CMSPAR :=
      Edit.run_and_of_untouched _ _ (by decide) (by decide)
    rw [parity, enable, odd, space]
    rfl
  case odd =>
    have enable : (parityEdit .odd).run w &&& PARENB = PARENB := Edit.run_and_of_set _ _ (by decide)
    have odd : (parityEdit .odd).run w &&& PARODD = PARODD := Edit.run_and_of_set _ _ (by decide)
    have space : (parityEdit .odd).run w &&& CMSPAR = w &&& CMSPAR :=
      Edit.run_and_of_untouched _ _ (by decide) (by decide)
    rw [parity, enable, odd, space]
    rfl
  case space =>
    have enable : (parityEdit .space).run w &&& PARENB = PARENB :=
      Edit.run_and_of_set _ _ (by decide)
    have odd : (parityEdit .space).run w &&& PARODD = 0 := Edit.run_and_of_cleared _ _ (by decide)
    have space : (parityEdit .space).run w &&& CMSPAR = CMSPAR :=
      Edit.run_and_of_set _ _ (by decide)
    rw [parity, enable, odd, space]
    rfl
  case mark =>
    have enable : (parityEdit .mark).run w &&& PARENB = PARENB := Edit.run_and_of_set _ _ (by decide)
    have odd : (parityEdit .mark).run w &&& PARODD = PARODD := Edit.run_and_of_set _ _ (by decide)
    have space : (parityEdit .mark).run w &&& CMSPAR = CMSPAR := Edit.run_and_of_set _ _ (by decide)
    rw [parity, enable, odd, space]
    rfl
  case ignore =>
    exact parity_congr (Edit.run_and_of_untouched _ _ (by decide) (by decide))

theorem charSize_lineEdit (config : UartConfig) (w : Flags) (size : 5 ≤ config.dataBits)
    (size' : config.dataBits ≤ 8) :
    charSize ((lineEdit config).run w) = config.dataBits ↔
      (config.parity = .ignore → config.dataBits = 7 ∨ config.dataBits = 8) := by
  rw [charSize, lineEdit_run_and_csize, ignored]
  generalize config.dataBits = bits at *
  by_cases ignore : config.parity = .ignore
  · simp only [ignore, forall_const]
    interval_cases bits <;> decide
  · simp only [ignore, false_imp_iff, iff_true]
    interval_cases bits <;> decide

theorem stopBits_lineEdit (config : UartConfig) (w : Flags) (stop : 1 ≤ config.stopBits)
    (stop' : config.stopBits ≤ 2) : stopBits ((lineEdit config).run w) = config.stopBits := by
  rw [stopBits, lineEdit_run_and_cstopb]
  generalize config.stopBits = bits at *
  interval_cases bits <;> decide

/-- The settings of a line: those in force, and the speed asked for. -/
structure Line where
  size : Int
  stop : Int
  parity : Parity
  baud : Flags
  deriving DecidableEq

/-- The line after `passed` was given to `tcsetattr` and left `actual`. -/
def lineOf (passed actual : Flags) : Line :=
  ⟨charSize actual, stopBits actual, parity actual, passed &&& CBAUD⟩

/-- The line is as `config` says. -/
structure AsAsked (config : UartConfig) (line : Line) : Prop where
  size : line.size = config.dataBits
  stop : line.stop = config.stopBits
  parity : config.parity ≠ .ignore → line.parity = config.parity
  baud : toBaudrateConstant config.speed = some line.baud

/-- The settings there were do not show through, and what `:ignore` sets was set anyway. -/
structure Clean (config : UartConfig) (prior : Flags) : Prop where
  unmixed : config.parity = .even ∨ config.parity = .odd → prior &&& CMSPAR = 0
  size : config.parity = .ignore → config.dataBits = 7 ∨ config.dataBits = 8
  baud : config.parity = .ignore → lineBaud config.speed &&& IGNPAR = IGNPAR

/-- The settings there were show through in the same way. -/
structure Alike (config : UartConfig) (prior prior' : Flags) : Prop where
  unmixed : config.parity = .even ∨ config.parity = .odd →
    (prior &&& CMSPAR = 0 ↔ prior' &&& CMSPAR = 0)
  ignored : config.parity = .ignore → parity prior = parity prior'

theorem lineOf_eq {fails : Fails} {config : UartConfig} {d d' : Dev}
    (h : uartConfigLine fails config d = (true, d')) :
    lineOf (lineOptions config d.tty.termios).cflag d'.tty.termios.cflag =
      lineOf ((lineEdit config).run d.tty.termios.cflag)
        ((lineEdit config).run d.tty.termios.cflag) := by
  obtain ⟨size, stop, par⟩ := uartConfigLine_fields h
  rw [lineOf, size, stop, par, lineOptions_cflag]
  rfl

theorem baud_lineEdit (config : UartConfig) (w : Flags)
    (known : (toBaudrateConstant config.speed).isSome = true) :
    toBaudrateConstant config.speed = some ((lineEdit config).run w &&& CBAUD) ↔
      (config.parity = .ignore → lineBaud config.speed &&& IGNPAR = IGNPAR) := by
  have baud : toBaudrateConstant config.speed = some (lineBaud config.speed) := by
    obtain ⟨b, hb⟩ := Option.isSome_iff_exists.mp known
    rw [lineBaud, hb]
    rfl
  rw [lineEdit_run_and_cbaud, baud, Option.some.injEq, ignored, eq_comm, or_eq_self_iff]
  split
  · next ignore =>
    have bits : (IGNPAR ||| ISTRIP) &&& CBAUD = IGNPAR := by decide
    rw [bits]
    exact ⟨fun h _ => h, fun h => h ignore⟩
  · next ignore => simp [ignore]

/-- **`uart_config_line` sets what was asked, but for what the parity leaves or adds.** A call
that succeeds leaves the settings of `config` iff nothing of the prior settings shows through
`:even` or `:odd` and what `:ignore` adds was there; and two calls that succeed leave the same
settings iff what shows through is the same. -/
theorem uartConfigLine_asAsked {fails : Fails} {config : UartConfig} {d d' : Dev}
    (size : 5 ≤ config.dataBits ∧ config.dataBits ≤ 8)
    (stop : 1 ≤ config.stopBits ∧ config.stopBits ≤ 2)
    (known : (toBaudrateConstant config.speed).isSome = true)
    (h : uartConfigLine fails config d = (true, d')) :
    (AsAsked config (lineOf (lineOptions config d.tty.termios).cflag d'.tty.termios.cflag) ↔
      Clean config d.tty.termios.cflag) ∧
    ∀ (fails₂ : Fails) (d₂ d₂' : Dev), uartConfigLine fails₂ config d₂ = (true, d₂') →
      (lineOf (lineOptions config d.tty.termios).cflag d'.tty.termios.cflag =
          lineOf (lineOptions config d₂.tty.termios).cflag d₂'.tty.termios.cflag ↔
        Alike config d.tty.termios.cflag d₂.tty.termios.cflag) := by
  constructor
  · rw [lineOf_eq h]
    generalize d.tty.termios.cflag = w
    have size_iff := charSize_lineEdit config w size.1 size.2
    have parity_eq := parity_lineEdit config w
    have baud_iff := baud_lineEdit config w known
    constructor
    · rintro ⟨hsize, -, hparity, hbaud⟩
      refine ⟨?_, size_iff.mp hsize, baud_iff.mp hbaud⟩
      intro evenOdd
      have asked : parity ((lineEdit config).run w) = config.parity :=
        hparity (by rcases evenOdd with h | h <;> simp [h])
      rw [parity_eq] at asked
      rcases evenOdd with h | h <;> simpa [h] using asked
    · rintro ⟨unmixed, hsize, hbaud⟩
      refine ⟨size_iff.mpr hsize, stopBits_lineEdit config w stop.1 stop.2, ?_, baud_iff.mpr hbaud⟩
      intro read
      refine parity_eq.trans ?_
      cases hp : config.parity with
      | none | space | mark => rfl
      | even => exact if_pos (unmixed (.inl hp))
      | odd => exact if_pos (unmixed (.inr hp))
      | ignore => exact absurd hp read
  · intro fails₂ d₂ d₂' h₂
    rw [lineOf_eq h, lineOf_eq h₂]
    generalize d.tty.termios.cflag = w
    generalize d₂.tty.termios.cflag = w₂
    have same : lineOf ((lineEdit config).run w) ((lineEdit config).run w) =
        lineOf ((lineEdit config).run w₂) ((lineEdit config).run w₂) ↔
          parity ((lineEdit config).run w) = parity ((lineEdit config).run w₂) := by
      simp only [lineOf, charSize, stopBits, lineEdit_run_and_csize, lineEdit_run_and_cstopb,
        lineEdit_run_and_cbaud, Line.mk.injEq, true_and, and_true]
    rw [same, parity_lineEdit, parity_lineEdit]
    constructor
    · intro hparity
      refine ⟨fun evenOdd => ?_, fun ignore => by simpa only [ignore] using hparity⟩
      rcases evenOdd with h | h <;> simp only [h] at hparity <;> grind
    · rintro ⟨unmixed, hignored⟩
      cases hp : config.parity with
      | none | space | mark => rfl
      | even => simp only [unmixed (.inl hp)]
      | odd => simp only [unmixed (.inr hp)]
      | ignore => exact hignored hp

/-- A device that holds the control word `cflag`. -/
def devWith (cflag : Flags) : Dev :=
  { tty := { Tty.raw with termios := { Tty.raw.termios with cflag := cflag } } }

/-- Even parity is set on a device that had none. -/
theorem uartConfigLine_asAsked_evenAfterNone :
    AsAsked { uartDefaultConfig with parity := .even }
      (lineOf (lineOptions { uartDefaultConfig with parity := .even } (devWith 0).tty.termios).cflag
        (uartConfigLine (fun _ => none) { uartDefaultConfig with parity := .even }
          (devWith 0)).2.tty.termios.cflag) :=
  (uartConfigLine_asAsked (by decide) (by decide) (by decide)
    (show uartConfigLine (fun _ => none) _ (devWith 0) = (true, _) by decide)).1.mpr
    ⟨fun _ => by decide, by decide, by decide⟩

/-- Even parity after mark parity is space parity, and `:ignore` makes 7 data bits of 5. Both
calls succeed. -/
theorem not_asAsked_evenAfterMark :
    let even := { uartDefaultConfig with parity := .even }
    let ignore := { uartDefaultConfig with parity := .ignore, dataBits := 5 }
    let afterMark := devWith (PARENB ||| PARODD ||| CMSPAR)
    ((uartConfigLine (fun _ => none) even afterMark).1 = true ∧
      ¬ AsAsked even (lineOf (lineOptions even afterMark.tty.termios).cflag
        (uartConfigLine (fun _ => none) even afterMark).2.tty.termios.cflag)) ∧
    ((uartConfigLine (fun _ => none) ignore (devWith 0)).1 = true ∧
      ¬ AsAsked ignore (lineOf (lineOptions ignore (devWith 0).tty.termios).cflag
        (uartConfigLine (fun _ => none) ignore (devWith 0)).2.tty.termios.cflag)) := by
  refine ⟨⟨by decide, fun h => absurd (h.parity (by decide)) (by decide)⟩, by decide, ?_⟩
  exact fun h => absurd h.size (by decide)

end CircuitsUart.Port
