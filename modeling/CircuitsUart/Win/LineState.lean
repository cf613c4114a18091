import CircuitsUart.Lib.Run
import CircuitsUart.Win.Moves

/-!
# The cached line state on Windows

`port->dcb` caches the state of the line: `uart_get_signals` reports RTS and DTR from it and
the next `SetCommState` sends it. It is to be the state the device was last given. What that
is can be read off the calls: a `SetCommState` that succeeded gave all of it, an
`EscapeCommFunction` that succeeded gave RTS or DTR.

Each of `uart_config_line`, `uart_set_rts` and `uart_set_dtr` writes the cache before the
system call, and leaves it so when that fails. So the cache stays true exactly in the runs
where a call that fails had nothing to change.
-/

set_option autoImplicit false

namespace CircuitsUart.Win

open Port (UartConfig Stop)

open CircuitsUart.Program (Yields Yields.bind Yields.mono)

open Lib

/-! ## What the device was given -/

/-- What a call gives to a device that was given `dcb`. -/
def Call.gives (dcb : Dcb) : Call → Dcb
  | .setCommState given true => given
  | .escapeCommFunction .setRts true => { dcb with fRtsControl := .enable }
  | .escapeCommFunction .clrRts true => { dcb with fRtsControl := .disable }
  | .escapeCommFunction .setDtr true => { dcb with fDtrControl := .enable }
  | .escapeCommFunction .clrDtr true => { dcb with fDtrControl := .disable }
  | _ => dcb

/-- RTS, DTR, speed and flow control are the same. -/
structure SameLine (a b : Dcb) : Prop where
  fRtsControl : a.fRtsControl = b.fRtsControl
  fDtrControl : a.fDtrControl = b.fDtrControl
  baudRate : a.baudRate = b.baudRate
  fInX : a.fInX = b.fInX
  fOutX : a.fOutX = b.fOutX
  fOutxDsrFlow : a.fOutxDsrFlow = b.fOutxDsrFlow
  fOutxCtsFlow : a.fOutxCtsFlow = b.fOutxCtsFlow

theorem SameLine.refl (dcb : Dcb) : SameLine dcb dcb := ⟨rfl, rfl, rfl, rfl, rfl, rfl, rfl⟩

namespace Program

/-- The state last successfully given to the device. -/
def given (p : Program) : Dcb := p.calls.foldl Call.gives {}

theorem given_called (p : Program) (c : Call) : (p.called c).given = c.gives p.given := by
  show (p.calls ++ [c]).foldl Call.gives {} = _
  rw [List.foldl_append]
  rfl

/-- What a call returns leaves the cache true, and if that is an error, as it was. -/
def KeptBy (p : Program) (r : Bool × Program) : Prop :=
  r.2.uart.dcb = r.2.given ∧ (r.1 = false → SameLine p.uart.dcb r.2.uart.dcb)

/-! ## What leaves the line alone -/

/-- From `p` to `q` neither the cache nor the device is written. -/
structure Leaves (p q : Program) : Prop where
  dcb : q.uart.dcb = p.uart.dcb
  given : q.given = p.given

namespace Leaves

variable {p q r : Program}

theorem refl (p : Program) : Leaves p p := ⟨rfl, rfl⟩

theorem trans (h : Leaves p q) (h' : Leaves q r) : Leaves p r :=
  ⟨h'.dcb.trans h.dcb, h'.given.trans h.given⟩

theorem of_same (calls : q.calls = p.calls) (dcb : q.uart.dcb = p.uart.dcb) : Leaves p q :=
  ⟨dcb, by unfold Program.given; rw [calls]⟩

/-- A call that gives nothing. -/
theorem of_called {c : Call} (calls : q.calls = p.calls ++ [c]) (dcb : q.uart.dcb = p.uart.dcb)
    (nothing : c.gives p.given = p.given) : Leaves p q := by
  refine ⟨dcb, ?_⟩
  unfold Program.given
  rw [calls, List.foldl_append]
  exact nothing

/-- The cache stays true. -/
theorem keeps (h : Leaves p q) (cached : p.uart.dcb = p.given) (ok : Bool) : p.KeptBy (ok, q) :=
  ⟨(h.dcb.trans cached).trans h.given.symm, fun _ => h.dcb ▸ SameLine.refl _⟩

end Leaves

theorem leaves_moves : Moves Leaves where
  refl := .refl
  trans := .trans
  same calls _ _ _ dcb := .of_same calls dcb
  notifyRead _ _ _ := .of_called rfl rfl rfl
  signals _ _ := .of_called rfl rfl rfl
  writeDone _ _ := .of_called rfl rfl rfl
  readDone _ _ := .of_called rfl rfl rfl

theorem leaves_startRead (os : Os) (timeout : Int) (p : Program) :
    Yields (Leaves p) (p.startRead os timeout) := by
  have asked : Leaves p (p.called .read) := .of_called rfl rfl rfl
  unfold startRead uartRead
  split
  · exact asked.trans (.of_called rfl rfl rfl)
  · split
    · trivial
    · set q : Program := { p.called .read with uart := { p.uart with
        readPending := true
        readCompletionDeadline := CircuitsUart.Program.deadline os.currentTime timeout } } with hq
      have waits : Leaves p q := asked.trans (.of_same rfl rfl)
      show Yields (Leaves p) (if q.uart.desiredEventMask &&& EV_RXCHAR = 0 then _ else _)
      split
      · refine (leaves_moves.requireCommMask os _ _ q).bind fun p₁ ⟨masked, same⟩ => ?_
        exact (waits.trans masked).trans (leaves_moves.awaitEvent os same)
      · exact waits.trans (leaves_moves.awaitEvent os rfl)

theorem leaves_writeFile (os : Os) (data : Nat) (p : Program) : Leaves p (p.writeFile os data) := by
  unfold writeFile
  dsimp only
  split
  · exact .of_same rfl rfl
  · exact .of_same rfl rfl
  · exact .of_called rfl rfl rfl

theorem leaves_startWrite (os : Os) (timeout : Int) (p : Program) :
    Yields (Leaves p) (p.startWrite os timeout) := by
  unfold startWrite
  have asked : Leaves p ({ p with blocks := p.blocks + 1 }.called (.write p.blocks)) :=
    .of_called rfl rfl rfl
  generalize ({ p with blocks := p.blocks + 1 }.called (.write p.blocks)) = q at asked
  unfold uartWrite
  split
  · trivial
  · split
    · have set := leaves_moves.updateWriteTimeout os timeout q
      rcases hs : q.updateWriteTimeout os timeout with ⟨_ | _, q₁⟩ <;> rw [hs] at set
      · exact (asked.trans set).trans (.of_called rfl rfl rfl)
      · exact (asked.trans set).trans (leaves_writeFile os _ q₁)
    · exact asked.trans (leaves_writeFile os _ q)

end Program

/-! ## What a configuration makes of the cache -/

/-- Speed and flow control are those of the configuration. -/
structure LineOf (config : UartConfig) (dcb : Dcb) : Prop where
  baudRate : dcb.baudRate = BitVec.ofInt 32 config.speed
  fInX : dcb.fInX = decide (config.flowControl = .software)
  fOutX : dcb.fOutX = decide (config.flowControl = .software)
  fOutxDsrFlow : dcb.fOutxDsrFlow = false
  fOutxCtsFlow : dcb.fOutxCtsFlow = decide (config.flowControl = .hardware)

/-- The format of a character is that of the configuration. -/
structure FormatOf (config : UartConfig) (dcb : Dcb) : Prop where
  parity : dcb.parity = toWindowsParity config.parity
  byteSize : dcb.byteSize = BitVec.ofInt 8 config.dataBits
  stopBits : dcb.stopBits = toWindowsStopbits config.stopBits

/-- The cache has everything that `uart_configure` sets: what it says of RTS need only be hardware
flow control or not. -/
structure Configured (config : UartConfig) (dcb : Dcb) : Prop where
  line : LineOf config dcb
  format : FormatOf config dcb
  fRtsControl : dcb.fRtsControl = .handshake ↔ config.flowControl = .hardware

/-- The cache has the RTS, the DTR, the speed and the flow control that `uart_open` sets. -/
structure LineOpened (config : UartConfig) (dcb : Dcb) : Prop where
  line : LineOf config dcb
  fRtsControl : dcb.fRtsControl = if config.flowControl = .hardware then .handshake else .enable
  fDtrControl : dcb.fDtrControl = .disable

/-- The cache has everything that `uart_open` sets, and finds on the device. -/
structure Opened (config : UartConfig) (reported dcb : Dcb) : Prop where
  line : LineOpened config dcb
  format : FormatOf config dcb
  fBinary : dcb.fBinary = true
  others : dcb.others = reported.others

/-- What becomes of RTS. -/
def rtsOf (config : UartConfig) (rts : Control) : Control :=
  if config.flowControl = .hardware then .handshake
  else if rts = .handshake then .enable else rts

theorem configDcb_eq (config : UartConfig) (dcb : Dcb) : configDcb config dcb =
    { dcb with
      baudRate := BitVec.ofInt 32 config.speed
      parity := toWindowsParity config.parity
      byteSize := BitVec.ofInt 8 config.dataBits
      stopBits := toWindowsStopbits config.stopBits
      fInX := decide (config.flowControl = .software)
      fOutX := decide (config.flowControl = .software)
      fOutxDsrFlow := false
      fOutxCtsFlow := decide (config.flowControl = .hardware)
      fRtsControl := rtsOf config dcb.fRtsControl } := by
  unfold configDcb rtsOf
  cases config.flowControl <;> rfl

theorem rtsOf_eq_iff (config : UartConfig) (rts : Control) :
    rtsOf config rts = rts ↔ (rts = .handshake ↔ config.flowControl = .hardware) := by
  unfold rtsOf
  by_cases hardware : config.flowControl = .hardware
  · simp [hardware, eq_comm]
  · cases rts <;> simp [hardware]

/-- **Configuring changes nothing**, exactly if the cache is configured so. -/
theorem configDcb_eq_iff (config : UartConfig) (dcb : Dcb) :
    configDcb config dcb = dcb ↔ Configured config dcb := by
  rw [configDcb_eq]
  constructor
  · intro h
    have field {α : Type} (f : Dcb → α) := (congrArg f h).symm
    exact ⟨⟨field Dcb.baudRate, field Dcb.fInX, field Dcb.fOutX, field Dcb.fOutxDsrFlow,
        field Dcb.fOutxCtsFlow⟩,
      ⟨field Dcb.parity, field Dcb.byteSize, field Dcb.stopBits⟩,
      (rtsOf_eq_iff config dcb.fRtsControl).mp (field Dcb.fRtsControl).symm⟩
  · intro ⟨line, format, rts⟩
    exact Dcb.ext line.baudRate.symm rfl line.fOutxCtsFlow.symm line.fOutxDsrFlow.symm rfl
      line.fOutX.symm line.fInX.symm ((rtsOf_eq_iff config dcb.fRtsControl).mpr rts)
      format.byteSize.symm format.parity.symm format.stopBits.symm rfl

theorem configDcb_initDcb (config : UartConfig) (reported : Dcb) :
    (configDcb config (initDcb reported)).fRtsControl =
      if config.flowControl = .hardware then .handshake else .enable := by
  rw [configDcb_eq]
  rfl

/-- **Opening changes nothing** in the cache, exactly if it is opened so. -/
theorem configDcb_initDcb_eq_iff (config : UartConfig) (reported dcb : Dcb) :
    configDcb config (initDcb reported) = dcb ↔ Opened config reported dcb := by
  have rts := configDcb_initDcb config reported
  rw [configDcb_eq] at rts ⊢
  constructor
  · rintro rfl
    exact ⟨⟨⟨rfl, rfl, rfl, rfl, rfl⟩, rts, rfl⟩, ⟨rfl, rfl, rfl⟩, rfl, rfl⟩
  · intro ⟨⟨line, rts', dtr⟩, format, binary, others⟩
    exact Dcb.ext line.baudRate.symm binary.symm line.fOutxCtsFlow.symm line.fOutxDsrFlow.symm
      dtr.symm line.fOutX.symm line.fInX.symm (rts.trans rts'.symm) format.byteSize.symm
      format.parity.symm format.stopBits.symm others.symm

theorem sameLine_configDcb_initDcb_iff (config : UartConfig) (reported dcb : Dcb) :
    SameLine dcb (configDcb config (initDcb reported)) ↔ LineOpened config dcb := by
  have rts := configDcb_initDcb config reported
  rw [configDcb_eq] at rts ⊢
  constructor
  · intro same
    exact ⟨⟨same.baudRate, same.fInX, same.fOutX, same.fOutxDsrFlow, same.fOutxCtsFlow⟩,
      same.fRtsControl.trans rts, same.fDtrControl⟩
  · intro ⟨line, rts', dtr⟩
    exact ⟨rts'.trans rts.symm, dtr, line.baudRate, line.fInX, line.fOutX, line.fOutxDsrFlow,
      line.fOutxCtsFlow⟩

namespace Program

/-! ## What sets the line -/

/-- What `uart_config_line` leaves: the cache is written, the device given it or not. -/
theorem uartConfigLine_spec (os : Os) (config : UartConfig) (p : Program) :
    (p.uartConfigLine os config).1 = os.setCommState.isOk ∧
      (p.uartConfigLine os config).2.uart.dcb = configDcb config p.uart.dcb ∧
      (p.uartConfigLine os config).2.given =
        (if os.setCommState.isOk then configDcb config p.uart.dcb else p.given) ∧
      (p.uartConfigLine os config).2.uart.activeModeEnabled = p.uart.activeModeEnabled := by
  unfold uartConfigLine
  cases os.setCommState with
  | ok => exact ⟨rfl, rfl, given_called _ _, rfl⟩
  | error error => exact ⟨rfl, rfl, given_called _ _, rfl⟩

/-- An `EscapeCommFunction` after the cache is written. -/
theorem escape_spec (os : Os) (func : Escape) (dcb : Dcb) (p : Program) :
    (escape os func (p.cache dcb)).1 = os.escapeCommFunction.isOk ∧
      (escape os func (p.cache dcb)).2.uart.dcb = dcb ∧
      (escape os func (p.cache dcb)).2.given =
        if os.escapeCommFunction.isOk then
          Call.gives p.given (.escapeCommFunction func true) else p.given := by
  unfold escape attempt
  cases os.escapeCommFunction with
  | ok => exact ⟨rfl, rfl, given_called _ _⟩
  | error error =>
    refine ⟨rfl, rfl, (given_called (p.cache dcb) _).trans ?_⟩
    cases func <;> rfl

/-- The end of `uart_open` goes well. -/
def listens (os : Os) (active : Bool) : Bool :=
  os.setCommMask.isOk && (!active || taken os.waitCommEvent)

theorem startAsyncReads_taken (os : Os) (p : Program) :
    (p.startAsyncReads os).1 = taken os.waitCommEvent := by
  unfold startAsyncReads taken
  split <;> simp_all

theorem listen_fst (os : Os) (p : Program) :
    (p.listen os).1 = listens os p.uart.activeModeEnabled := by
  have mode : (p.updateWriteTimeout os (-1)).2.uart.activeModeEnabled =
      p.uart.activeModeEnabled := by
    unfold updateWriteTimeout
    cases os.setCommTimeouts <;> rfl
  unfold listen setCommMask listens
  rw [← mode]
  generalize (p.updateWriteTimeout os (-1)).2 = q
  cases os.setCommMask with
  | error error => rfl
  | ok =>
    have same : (q.desire EV_RXCHAR).uart.activeModeEnabled = q.uart.activeModeEnabled := rfl
    rw [← same]
    dsimp only
    generalize q.desire EV_RXCHAR = q
    have started := startAsyncReads_taken os q
    cases q.uart.activeModeEnabled with
    | false => rfl
    | true =>
      rw [if_pos rfl, ← started]
      rcases q.startAsyncReads os with ⟨_ | _, q₁⟩ <;> rfl

/-! ## Step by step -/

/-- `uart_open` keeps the cache: if `SetCommState` fails the cache was what it would have become,
and if something fails after that, the line was. -/
def OpenKeeps (os : Os) (name : List UInt8) (config : UartConfig) (p : Program) : Prop :=
  ∀ reported, os.createFile (windowsPortPath name) = .ok () → os.getCommState = .ok reported →
    if os.setCommState.isOk then
      listens os config.active = false → LineOpened config p.uart.dcb
    else Opened config reported p.uart.dcb

theorem uartOpen_keeps_iff (os : Os) (name : List UInt8) (config : UartConfig) {p : Program}
    (cached : p.uart.dcb = p.given) :
    KeptBy p (p.uartOpen os name config) ↔ OpenKeeps os name config p := by
  have closed := leaves_moves.uartClose p
  unfold uartOpen OpenKeeps
  generalize p.uartClose = p₁ at closed
  dsimp only
  cases os.createFile (windowsPortPath name) with
  | error error =>
    refine iff_of_true ((closed.trans (.of_same rfl rfl)).keeps cached false) ?_
    exact fun _ created => absurd created (by simp)
  | ok =>
    have opened : Leaves p { p₁ with
        uart := { p₁.uart with h := true, activeModeEnabled := config.active } } :=
      closed.trans (.of_same rfl rfl)
    have mode : ({ p₁ with
        uart := { p₁.uart with h := true, activeModeEnabled := config.active } } :
        Program).uart.activeModeEnabled = config.active := rfl
    generalize ({ p₁ with
        uart := { p₁.uart with h := true, activeModeEnabled := config.active } } : Program) = p₂
      at opened mode
    unfold uartInitDcb
    dsimp only
    cases os.getCommState with
    | error error =>
      refine iff_of_true ((opened.trans (.of_same rfl rfl)).keeps cached false) ?_
      exact fun _ _ got => absurd got (by simp)
    | ok reported =>
      obtain ⟨ok, dcb, given, mode'⟩ := uartConfigLine_spec os config (p₂.cache (initDcb reported))
      have given₂ : (p₂.cache (initDcb reported)).given = p.uart.dcb :=
        opened.given.trans cached.symm
      rw [given₂] at given
      have mode' := mode'.trans mode
      dsimp only
      simp only [Except.ok.injEq, forall_const, forall_eq']
      rcases hc : (p₂.cache (initDcb reported)).uartConfigLine os config with ⟨_ | _, p₃⟩ <;>
        simp only [hc] at ok dcb given mode'
      · -- the device is given nothing, and the cache is written all the same
        have closed := leaves_moves.closeHandle p₃
        rw [if_neg (by simp [← ok])] at given ⊢
        unfold KeptBy
        rw [closed.dcb, closed.given, dcb, given, ← configDcb_initDcb_eq_iff]
        exact ⟨fun kept => kept.1, fun kept => ⟨kept, fun _ => kept ▸ SameLine.refl _⟩⟩
      · have left := leaves_moves.listen os p₃
        have ends := listen_fst os p₃
        rw [mode'] at ends
        rw [if_pos (by simp [← ok])] at given ⊢
        unfold KeptBy
        rw [left.dcb, left.given, dcb, given, ends, ← sameLine_configDcb_initDcb_iff]
        exact ⟨fun kept => kept.2, fun line => ⟨rfl, line⟩⟩

/-- `uart_configure` keeps the cache: if `SetCommState` fails, the cache was what it would have
become. -/
def ConfigureKeeps (os : Os) (config : UartConfig) (p : Program) : Prop :=
  p.uart.h = true → os.setCommState.isOk = false →
    (config.active = p.uart.activeModeEnabled ∨ config.active = false ∨
      taken os.waitCommEvent = true) → Configured config p.uart.dcb

theorem changeMode_returns (os : Os) (active : Bool) (p : Program) :
    Yields (fun r => Leaves p r.2 ∧ r.1 = (!active || taken os.waitCommEvent))
      (p.changeMode os active) := by
  unfold changeMode
  split
  · trivial
  · cases active with
    | false =>
      exact (leaves_moves.requireCommMask os _ _ p).bind fun p₁ ⟨masked, _⟩ => ⟨masked, rfl⟩
    | true =>
      refine (leaves_moves.requireCommMask os _ _ p).bind fun p₁ ⟨masked, _⟩ => ?_
      have started := leaves_moves.startAsyncReads os p₁
      have taken := startAsyncReads_taken os p₁
      rcases hs : p₁.startAsyncReads os with ⟨_ | _, p₂⟩ <;> rw [hs] at started taken
      · exact ⟨(masked.trans started).trans (leaves_moves.closeHandle p₂), taken⟩
      · exact ⟨masked.trans started, taken⟩

/-- The last part of `uart_configure`. -/
theorem uartConfigLine_keeps_iff (os : Os) (config : UartConfig) {p q : Program}
    (cached : p.uart.dcb = p.given) (leaves : Leaves p q) :
    KeptBy p (q.uartConfigLine os config) ↔
      (os.setCommState.isOk = false → Configured config p.uart.dcb) := by
  obtain ⟨ok, dcb, given, -⟩ := uartConfigLine_spec os config q
  unfold KeptBy
  rw [ok, dcb, given, leaves.dcb, leaves.given, ← cached, ← configDcb_eq_iff]
  cases os.setCommState.isOk with
  | true => simp
  | false =>
    refine ⟨fun kept _ => kept.1, fun kept => ⟨kept rfl, fun _ => ?_⟩⟩
    rw [kept rfl]
    exact .refl _

/-- `uart_configure` up to `uart_config_line`, whether it gets that far or not. -/
theorem mode_returns (os : Os) (config : UartConfig) (p : Program) :
    Yields (fun r => Leaves p r.2 ∧ (r.1 = true ↔ config.active = p.uart.activeModeEnabled ∨
        config.active = false ∨ taken os.waitCommEvent = true))
      (if config.active ≠ p.uart.activeModeEnabled then
        changeMode os config.active
          { p with uart := { p.uart with activeModeEnabled := config.active } }
      else .ok (true, { p with uart := { p.uart with activeModeEnabled := config.active } })) := by
  have moded : Leaves p { p with uart := { p.uart with activeModeEnabled := config.active } } :=
    .of_same rfl rfl
  split
  · next changed =>
    refine (changeMode_returns os config.active _).mono fun r ⟨leaves, ok⟩ => ?_
    refine ⟨moded.trans leaves, ?_⟩
    rw [ok, or_iff_right changed]
    cases config.active <;> simp
  · next same => exact ⟨moded, iff_of_true rfl (.inl (Decidable.not_not.mp same))⟩

theorem uartConfigure_keeps_iff (os : Os) (config : UartConfig) {p : Program}
    (cached : p.uart.dcb = p.given) :
    Yields (fun r => KeptBy p r ↔ ConfigureKeeps os config p) (p.uartConfigure os config) := by
  unfold uartConfigure ConfigureKeeps
  dsimp only
  split
  · next opened =>
    have opened : p.uart.h = true := opened
    refine (mode_returns os config p).bind fun ⟨ok, q⟩ ⟨leaves, reaches⟩ => ?_
    cases ok with
    | false =>
      have never := mt reaches.mpr (by simp)
      exact iff_of_true (leaves.keeps cached false) fun _ _ comes => absurd comes never
    | true =>
      show KeptBy p (q.uartConfigLine os config) ↔ _
      rw [uartConfigLine_keeps_iff os config cached leaves]
      have comes := reaches.mp rfl
      exact ⟨fun same _ fails _ => same fails, fun same fails => same opened fails comes⟩
  · next closed =>
    have leaves : Leaves p { p with uart := { p.uart with activeModeEnabled := config.active } } :=
      .of_same rfl rfl
    exact iff_of_true (leaves.keeps cached true) fun opened => absurd opened closed

/-- The cache is written and `EscapeCommFunction` called: if that fails, nothing was to change. -/
theorem escape_keeps_iff (os : Os) {func : Escape} {dcb : Dcb} {p : Program}
    (cached : p.uart.dcb = p.given)
    (gives : Call.gives p.uart.dcb (.escapeCommFunction func true) = dcb) :
    KeptBy p (escape os func (p.cache dcb)) ↔
      (os.escapeCommFunction.isOk = false → dcb = p.uart.dcb) := by
  obtain ⟨ok, same, given⟩ := escape_spec os func dcb p
  unfold KeptBy
  rw [ok, same, given, ← cached, gives]
  cases os.escapeCommFunction.isOk with
  | true => simp
  | false =>
    refine ⟨fun kept _ => kept.1, fun kept => ⟨kept rfl, fun _ => ?_⟩⟩
    rw [kept rfl]
    exact .refl _

theorem uartSetRts_keeps_iff (os : Os) (val : Bool) {p : Program} (cached : p.uart.dcb = p.given) :
    KeptBy p (p.uartSetRts os val) ↔ (os.escapeCommFunction.isOk = false →
      p.uart.dcb.fRtsControl = Control.ofBool val) := by
  unfold uartSetRts
  rw [escape_keeps_iff os cached (by cases val <;> rfl)]
  refine imp_congr_right fun _ => ⟨fun same => (congrArg Dcb.fRtsControl same).symm, fun same => ?_⟩
  rw [← same]

theorem uartSetDtr_keeps_iff (os : Os) (val : Bool) {p : Program} (cached : p.uart.dcb = p.given) :
    KeptBy p (p.uartSetDtr os val) ↔ (os.escapeCommFunction.isOk = false →
      p.uart.dcb.fDtrControl = Control.ofBool val) := by
  unfold uartSetDtr
  rw [escape_keeps_iff os cached (by cases val <;> rfl)]
  refine imp_congr_right fun _ => ⟨fun same => (congrArg Dcb.fDtrControl same).symm, fun same => ?_⟩
  rw [← same]

/-! ## Whole runs -/

/-- A call that returns leaves the cache true, and if it returns an error, as it was. -/
def KeepsLine (p : Program) (e : Event) : Prop := Yields p.KeptBy (p.handle e)

/-- A system call that fails had nothing to change. -/
def NothingToChange (p : Program) : Event → Prop
  | .request os (.open name config) => OpenKeeps os name config p
  | .request os (.configure config) => ConfigureKeeps os config p
  | .request os (.setRts val) => os.escapeCommFunction.isOk = false →
      p.uart.dcb.fRtsControl = Control.ofBool val
  | .request os (.setDtr val) => os.escapeCommFunction.isOk = false →
      p.uart.dcb.fDtrControl = Control.ofBool val
  | _ => True

/-- **The step**: a call that returns keeps the cache exactly if what failed had nothing to
change. -/
theorem keepsLine_step_iff {p q : Program} {e : Event} {out : List Bool}
    (cached : p.uart.dcb = p.given) (took : p.step e = some (q, out)) :
    p.KeepsLine e ↔ p.NothingToChange e := by
  have leaves {e : Event} (h : Yields (fun r => Leaves p r.2) (p.handle e)) :
      p.KeepsLine e := h.mono fun r leaves => leaves.keeps cached r.1
  obtain ⟨ok, ran, -⟩ := step_eq_some took
  cases e with
  | handle os event =>
    exact iff_of_true (leaves (leaves_moves.uartProcessHandle os event p)) trivial
  | timeout os =>
    exact iff_of_true (leaves (yields_void (leaves_moves.uartProcessTimeout os p))) trivial
  | request os r =>
    cases r with
    | «open» name config => exact uartOpen_keeps_iff os name config cached
    | configure config =>
      have kept := uartConfigure_keeps_iff os config cached
      unfold KeepsLine
      rw [ran]
      rw [show p.uartConfigure os config = .ok (ok, q) from ran] at kept
      exact kept
    | setRts val => exact uartSetRts_keeps_iff os val cached
    | setDtr val => exact uartSetDtr_keeps_iff os val cached
    | close => exact iff_of_true (leaves (leaves_moves.uartClose p)) trivial
    | write timeout =>
      exact iff_of_true (leaves (yields_void (leaves_startWrite os timeout p))) trivial
    | read timeout =>
      exact iff_of_true (leaves (yields_void (leaves_startRead os timeout p))) trivial
    | drain => exact iff_of_true (leaves (yields_void (leaves_moves.uartDrain p))) trivial
    | flush direction =>
      exact iff_of_true (leaves (yields_void (leaves_moves.uartFlush direction p))) trivial
    | setBreak val => exact iff_of_true (leaves (leaves_moves.attempt os.commBreak p)) trivial
    | getSignals => exact iff_of_true (leaves (leaves_moves.uartGetSignals os p)) trivial

/-- **The cached line state stays true** throughout a run, exactly if each of its system calls that
fails had nothing to change. -/
theorem everyStep_keepsLine_iff (es : List Event) :
    EveryStep step KeepsLine {} es ↔ EveryStep step NothingToChange {} es := by
  refine everyStep_congr (I := fun p => p.uart.dcb = p.given) (E := fun _ => True) ?_
    (fun p e q out cached _ took => keepsLine_step_iff cached took) (fun _ _ => trivial) rfl
  intro p e q out cached _ kept took
  obtain ⟨ok, ran, -⟩ := step_eq_some took
  unfold KeepsLine at kept
  rw [ran] at kept
  exact kept.1

/-- A port with hardware flow control, whose RTS the driver does not let the program set. -/
def refusedRts : List Event :=
  [.request {} (.open [] { Port.uartDefaultConfig with flowControl := .hardware }),
    .request { escapeCommFunction := .error .invalidParameter } (.setRts true),
    .request {} .getSignals]

/-- The call returns an error, and RTS is reported as set from then on. -/
theorem not_everyStep_keepsLine_refusedRts :
    (∃ p sig, exec step ({} : Program) refusedRts = some (p, [true, false, true]) ∧
      p.calls.getLast? = some (.signals sig) ∧ sig.rts = true) ∧
    ¬ EveryStep step KeepsLine {} refusedRts := by
  refine ⟨⟨_, _, rfl, rfl, rfl⟩, fun keeps => ?_⟩
  obtain ⟨-, keeps⟩ := keeps _ _ rfl
  obtain ⟨kept, -⟩ := keeps _ _ rfl
  have same : Control.enable = .handshake := congrArg Dcb.fRtsControl kept.1
  exact absurd same (by simp)

end Program

end CircuitsUart.Win
