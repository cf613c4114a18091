import CircuitsUart.Port.Rs485

/-!
# RS485 only when asked for

`uart_config_rs485` goes by a flag of the configuration, and the configuration is copied forward
from call to call: once the user has given an `rs485_*` option, every later open or configure that
gets as far calls `TIOCGRS485` and `TIOCSRS485`, whatever the device. With them go the settings
that were read back from whichever device was set last.

`Stage` cuts `handle_open` and `handle_configure` where they call `uart_config_rs485`, which is the
only place where they could.

That nothing is called is said without a trace of calls: a call is not made if its answer makes no
difference to the outcome. `Os.answering` is the same system with other answers to the two ioctls,
and a handler that is deaf to them has not asked. For `TIOCSRS485` this is exact (`silent_iff`).
What a call was asked to do is a matter of its own options and of those of the calls before it,
which `Tracked` keeps beside the program.
-/

set_option autoImplicit false

namespace CircuitsUart

open Lib

namespace Port

/-! ## Up to `uart_config_rs485` -/

theorem andThen_assoc (r : Bool × Dev) (go go' : Dev → Bool × Dev) :
    andThen (andThen r go) go' = andThen r fun d => andThen (go d) go' := by
  obtain ⟨ok, d⟩ := r
  cases ok <;> rfl

theorem Dev.attempt_andThen (fails : Fails) (site : CallSite) (d : Dev)
    (go go' : Dev → Bool × Dev) :
    andThen (d.attempt fails site go) go' = d.attempt fails site fun d => andThen (go d) go' := by
  unfold Dev.attempt
  cases fails site <;> rfl

/-- `uart_open` on an open descriptor, up to `uart_config_rs485`. -/
def prepareOpen (fails : Fails) (config : UartConfig) (d : Dev) : Bool × Dev :=
  d.attempt fails .flock fun d =>
    andThen (uartConfigLine fails config d) fun d =>
      andThen (uartConfigFlowcontrol fails config d) fun d =>
        if isCustomSpeed config.speed then setCustomSpeed fails config.speed d else (true, d)

/-- `uart_configure` on an open descriptor, up to `uart_config_rs485`. -/
def prepareConfigure (fails : Fails) (config : UartConfig) (d : Dev) : Bool × Dev :=
  andThen (uartConfigLine fails config d) fun d => uartConfigFlowcontrol fails config d

/-- The `tcflush` at the end of `uart_open`. -/
def flushed (fails : Fails) (d : Dev) : Dev := (d.attempt fails .tcflush fun d => (true, d)).2

theorem openDevice_eq (fails : Fails) (config : UartConfig) (d : Dev) :
    openDevice fails config d = andThen (prepareOpen fails config d) fun d =>
      andThen (uartConfigRs485 fails config d) fun d => (true, flushed fails d) := by
  unfold prepareOpen
  simp only [Dev.attempt_andThen, andThen_assoc]
  rfl

theorem configureDevice_eq (fails : Fails) (config : UartConfig) (d : Dev) :
    configureDevice fails config d = andThen (prepareConfigure fails config d) fun d =>
      uartConfigRs485 fails config d := by
  unfold prepareConfigure
  rw [andThen_assoc]
  rfl

/-! ### What comes before leaves RS485 alone -/

/-- The RS485 settings of a device are as they were. -/
def SameRs485 (d : Dev) (r : Bool × Dev) : Prop := r.2.tty.rs485 = d.tty.rs485

theorem SameRs485.attempt {fails : Fails} {site : CallSite} {d : Dev} {go : Dev → Bool × Dev}
    (h : SameRs485 d (go d)) : SameRs485 d (d.attempt fails site go) := by
  unfold Dev.attempt
  cases fails site with
  | some errno => rfl
  | none => exact h

theorem SameRs485.andThen {d : Dev} {r : Bool × Dev} {go : Dev → Bool × Dev} (h : SameRs485 d r)
    (hgo : ∀ d', SameRs485 d' (go d')) : SameRs485 d (andThen r go) := by
  obtain ⟨ok, d'⟩ := r
  cases ok with
  | true => exact (hgo d').trans h
  | false => exact h

theorem clearCustomSpeed_rs485 (fails : Fails) (d : Dev) :
    SameRs485 d (clearCustomSpeed fails d) := by
  apply SameRs485.attempt
  dsimp only
  split
  · exact SameRs485.attempt rfl
  · rfl

theorem uartConfigLine_rs485 (fails : Fails) (config : UartConfig) (d : Dev) :
    SameRs485 d (uartConfigLine fails config d) := by
  have cleared : (if (toBaudrateConstant config.speed).isSome then (clearCustomSpeed fails d).2
      else d).tty.rs485 = d.tty.rs485 := by
    split
    · exact clearCustomSpeed_rs485 fails d
    · rfl
  apply SameRs485.attempt
  refine Eq.trans ?_ cleared
  -- `tcsetattr` and `tcgetattr` know nothing of RS485
  generalize (if (toBaudrateConstant config.speed).isSome then (clearCustomSpeed fails d).2
    else d) = d₁
  apply SameRs485.attempt
  refine SameRs485.attempt ?_
  dsimp only
  split <;> rfl

theorem uartConfigFlowcontrol_rs485 (fails : Fails) (config : UartConfig) (d : Dev) :
    SameRs485 d (uartConfigFlowcontrol fails config d) := .attempt (.attempt rfl)

theorem setCustomSpeed_rs485 (fails : Fails) (speed : Int) (d : Dev) :
    SameRs485 d (setCustomSpeed fails speed d) := .attempt (.attempt rfl)

theorem prepareConfigure_rs485 (fails : Fails) (config : UartConfig) (d : Dev) :
    SameRs485 d (prepareConfigure fails config d) :=
  (uartConfigLine_rs485 fails config d).andThen (uartConfigFlowcontrol_rs485 fails config)

theorem prepareOpen_rs485 (fails : Fails) (config : UartConfig) (d : Dev) :
    SameRs485 d (prepareOpen fails config d) := by
  apply SameRs485.attempt
  apply (uartConfigLine_rs485 fails config d).andThen
  intro d
  apply (uartConfigFlowcontrol_rs485 fails config d).andThen
  intro d
  split
  · exact setCustomSpeed_rs485 fails config.speed d
  · rfl

/-- What `uart_config_rs485` leaves of the device. -/
theorem uartConfigRs485_rs485 (fails : Fails) (config : UartConfig) (d : Dev) :
    (uartConfigRs485 fails config d).2.tty.rs485 =
      if config.rs485UserConfigured = true ∧ fails .rs485Get = none ∧ fails .rs485Set = none then
        rs485Options config d.tty.rs485
      else d.tty.rs485 := by
  unfold uartConfigRs485 Dev.attempt
  cases config.rs485UserConfigured with
  | false => rfl
  | true =>
    cases fails .rs485Get with
    | some errno => simp
    | none => cases fails .rs485Set <;> simp

end Port

open Port

/-- The options of an open or a configure. -/
def Command.options? : Command → Option (List UartOption)
  | .open _ opts => some opts
  | .configure opts => some opts
  | _ => none

namespace Program

variable {β : Type}

/-! ## Where a call stands when it comes to RS485 -/

/-- A call up to its `uart_config_rs485`: it has ended before that, or it goes on with a
configuration, on a device that was `device` when the call began. -/
inductive Stage (β : Type)
  | ended (r : Except Stop (Program β))
  | rs485 (device : Tty) (config : UartConfig) (q : Program β)

/-- `handle_open`. -/
def openStage (os : Os β) (name : List UInt8) (opts : List UartOption) (p : Program β) : Stage β :=
  if 64 ≤ name.length then .ended (.ok (p.sendErrorResponse .enoent))
  else
    match configure p.currentConfig opts with
    | none => .ended (.ok (p.sendErrorResponse .einval))
    | some config =>
      let p := p.shut
      match nameToDeviceFile os (cString name) with
      | none => .ended (.ok (p.sendErrorResponse p.lastError))
      | some path =>
        match os.opened path with
        | .error errno =>
          let p := recordErrno { p with
            uart := { p.uart with fd := none, activeModeEnabled := config.active }
            dev := { p.dev with errno := errno } }
          .ended (.ok (p.sendErrorResponse p.lastError))
        | .ok (fd, tty) =>
          let p := { p with
            uart := { p.uart with fd := some fd, activeModeEnabled := config.active }
            dev := { p.dev with tty := tty } }
          match prepareOpen os.fails config p.dev with
          | (true, dev) => .rs485 tty config { p with dev := dev }
          | (false, dev) =>
            let p := recordErrno { p with dev := dev }
            let p := { p with uart := { p.uart with fd := none } }
            .ended (.ok (p.sendErrorResponse p.lastError))

/-- `handle_configure`. -/
def configureStage (os : Os β) (opts : List UartOption) (p : Program β) : Stage β :=
  match configure p.currentConfig opts with
  | none => .ended (.ok (p.sendErrorResponse .einval))
  | some config =>
    if config.active ≠ p.uart.activeModeEnabled ∧ p.uart.readPending then
      .ended (.error (.errx "Elixir is supposed to queue read ops"))
    else
      let tty := p.dev.tty
      let p := { p with uart := { p.uart with activeModeEnabled := config.active } }
      match p.uart.fd with
      | none => .ended (.ok (p.adopt os config).sendOkResponse)
      | some _ =>
        match prepareConfigure os.fails config p.dev with
        | (true, dev) => .rs485 tty config { p with dev := dev }
        | (false, dev) =>
          let p := recordErrno { p with dev := dev }
          .ended (.ok (p.sendErrorResponse p.lastError))

/-- The rest of `handle_open`, from what `uart_config_rs485` returns. -/
def endOpen (os : Os β) (config : UartConfig) (q : Program β) : Bool × Dev → Program β
  | (true, dev) => (adopt os config { q with dev := flushed os.fails dev }).sendOkResponse
  | (false, dev) =>
    let q := recordErrno { q with dev := dev }
    sendErrorResponse { q with uart := { q.uart with fd := none } } q.lastError

/-- The rest of `handle_configure`. -/
def endConfigure (os : Os β) (config : UartConfig) (q : Program β) : Bool × Dev → Program β
  | (true, dev) => (adopt os config { q with dev := dev }).sendOkResponse
  | (false, dev) =>
    let q := recordErrno { q with dev := dev }
    q.sendErrorResponse q.lastError

/-- A call from where it stands. -/
def Stage.finish (rest : UartConfig → Program β → Bool × Dev → Program β) (fails : Fails) :
    Stage β → Except Stop (Program β)
  | .ended r => r
  | .rs485 _ config q => .ok (rest config q (uartConfigRs485 fails config q.dev))

theorem handleOpen_stage (os : Os β) (name : List UInt8) (opts : List UartOption) (p : Program β) :
    .ok (p.handleOpen os name opts) =
      (openStage os name opts p).finish (endOpen os) os.fails := by
  unfold handleOpen openStage
  split
  · rfl
  · cases configure p.currentConfig opts with
    | none => rfl
    | some config =>
      dsimp only
      unfold uartOpen shut
      generalize (if p.uartIsOpen then p.uartClose else p) = p
      cases nameToDeviceFile os (cString name) with
      | none => rfl
      | some path =>
        dsimp only
        rcases os.opened path with errno | ⟨fd, tty⟩
        · rfl
        · dsimp only
          rw [openDevice_eq]
          rcases prepareOpen os.fails config { p.dev with tty := tty } with ⟨_ | _, dev⟩
          · rfl
          · dsimp only [andThen, Stage.finish]
            rcases uartConfigRs485 os.fails config dev with ⟨_ | _, dev⟩ <;> rfl

theorem handleConfigure_stage (os : Os β) (opts : List UartOption) (p : Program β) :
    p.handleConfigure os opts = (configureStage os opts p).finish (endConfigure os) os.fails := by
  unfold handleConfigure configureStage
  cases configure p.currentConfig opts with
  | none => rfl
  | some config =>
    dsimp only
    unfold uartConfigure
    split
    · rfl
    · dsimp only
      cases p.uart.fd with
      | none => rfl
      | some fd =>
        dsimp only
        rw [configureDevice_eq]
        rcases prepareConfigure os.fails config p.dev with ⟨_ | _, dev⟩
        · rfl
        · dsimp only [andThen, Stage.finish]
          rcases uartConfigRs485 os.fails config dev with ⟨_ | _, dev⟩ <;> rfl

/-- A request, up to its `uart_config_rs485`; those that have none are over. -/
def stage (os : Os β) (p : Program β) : Command → Stage β
  | .open name opts => openStage os name opts p
  | .configure opts => configureStage os opts p
  | command => .ended (p.handleElixirRequest os command)

/-- What follows it. -/
def rest (os : Os β) : Command → UartConfig → Program β → Bool × Dev → Program β
  | .open _ _ => endOpen os
  | _ => endConfigure os

theorem handleElixirRequest_stage (os : Os β) (command : Command) (p : Program β) :
    p.handleElixirRequest os command = (p.stage os command).finish (rest os command) os.fails := by
  cases command with
  | «open» name opts => exact handleOpen_stage os name opts p
  | configure opts => exact handleConfigure_stage os opts p
  | _ => rfl

/-! ### The device -/

/-- The device that `handle_open` opens, as it finds it. -/
def foundByOpen (os : Os β) (name : List UInt8) (opts : List UartOption) (p : Program β) :
    Option Tty :=
  if 64 ≤ name.length then none
  else
    match configure p.currentConfig opts, nameToDeviceFile os (cString name) with
    | some _, some path => (os.opened path).toOption.map Prod.snd
    | _, _ => none

/-- The device that `handle_configure` sets. -/
def foundByConfigure (p : Program β) : Option Tty :=
  if p.uartIsOpen then some p.dev.tty else none

def found (os : Os β) (p : Program β) : Command → Option Tty
  | .open name opts => p.foundByOpen os name opts
  | .configure _ => p.foundByConfigure
  | _ => none

/-- Until `uart_config_rs485` the RS485 settings of a device are as they were. -/
def Stage.Finds (found : Option Tty) (parsed : Option UartConfig) : Stage β → Prop
  | .ended (.ok q) => ∀ tty, found = some tty → q.dev.tty.rs485 = tty.rs485
  | .ended (.error _) => True
  | .rs485 device config q =>
    found = some device ∧ parsed = some config ∧ q.dev.tty.rs485 = device.rs485

theorem openStage_finds (os : Os β) (name : List UInt8) (opts : List UartOption) (p : Program β) :
    (openStage os name opts p).Finds (p.foundByOpen os name opts)
      (configure p.currentConfig opts) := by
  unfold openStage foundByOpen
  split
  · exact fun _ none => absurd none (by simp)
  · cases configure p.currentConfig opts with
    | none => exact fun _ none => absurd none (by simp)
    | some config =>
      dsimp only
      cases nameToDeviceFile os (cString name) with
      | none => exact fun _ none => absurd none (by simp)
      | some path =>
        dsimp only
        rcases os.opened path with errno | ⟨fd, tty⟩
        · exact fun _ none => absurd none (by simp [Except.toOption])
        · dsimp only
          have kept := prepareOpen_rs485 os.fails config ⟨tty, p.shut.dev.errno⟩
          generalize prepareOpen os.fails config ⟨tty, p.shut.dev.errno⟩ = r at kept ⊢
          obtain ⟨_ | _, dev⟩ := r
          · intro device same
            obtain rfl := Option.some.inj same
            exact kept
          · exact ⟨rfl, rfl, kept⟩

theorem configureStage_finds (os : Os β) (opts : List UartOption) (p : Program β) :
    (configureStage os opts p).Finds p.foundByConfigure (configure p.currentConfig opts) := by
  unfold configureStage foundByConfigure uartIsOpen
  cases configure p.currentConfig opts with
  | none =>
    intro tty same
    obtain ⟨-, same⟩ := Option.ite_none_right_eq_some.mp same
    obtain rfl := Option.some.inj same
    rfl
  | some config =>
    by_cases conflict : config.active ≠ p.uart.activeModeEnabled ∧ p.uart.readPending
    · dsimp only
      rw [if_pos conflict]
      trivial
    · dsimp only
      rw [if_neg conflict]
      cases p.uart.fd with
      | none => exact fun _ none => absurd none (by simp)
      | some fd =>
        have kept := prepareConfigure_rs485 os.fails config p.dev
        dsimp only
        generalize prepareConfigure os.fails config p.dev = r at kept ⊢
        obtain ⟨_ | _, dev⟩ := r
        · intro device same
          obtain rfl := Option.some.inj same
          exact kept
        · exact ⟨rfl, rfl, kept⟩

theorem stage_finds (os : Os β) (p : Program β) {command : Command} {opts : List UartOption}
    (asks : command.options? = some opts) :
    (p.stage os command).Finds (p.found os command) (configure p.currentConfig opts) := by
  cases command with
  | «open» name opts' =>
    obtain rfl := Option.some.inj asks
    exact openStage_finds os name opts' p
  | configure opts' =>
    obtain rfl := Option.some.inj asks
    exact configureStage_finds os opts' p
  | _ => exact absurd asks (by simp [Command.options?])

/-! ### What follows -/

theorem out_rest (os : Os β) (command : Command) (config : UartConfig) (q : Program β)
    (r : Bool × Dev) : (rest os command config q r).out =
      q.out ++ [.response (if r.1 then .ok else .error (recordLastError r.2.errno))] := by
  have ok (dev : Dev) : (adopt os config { q with dev := dev }).sendOkResponse.out =
      q.out ++ [.response .ok] := by
    show (adopt os config { q with dev := dev }).out ++ _ = _
    rw [out_adopt]
  obtain ⟨_ | _, dev⟩ := r
  · cases command <;> rfl
  · cases command with
    | «open» name opts => exact ok (flushed os.fails dev)
    | _ => exact ok dev

theorem tty_rest (os : Os β) (command : Command) (config : UartConfig) (q : Program β)
    (r : Bool × Dev) : (rest os command config q r).dev.tty = r.2.tty := by
  obtain ⟨_ | _, dev⟩ := r
  · cases command <;> rfl
  · cases command with
    | «open» name opts =>
      refine (tty_adopt os config { q with dev := flushed os.fails dev }).trans ?_
      show (flushed os.fails dev).tty = dev.tty
      unfold flushed Dev.attempt
      cases os.fails .tcflush <;> rfl
    | _ => exact tty_adopt os config { q with dev := dev }

/-! ### The answers of the two calls -/

end Program

/-- The same system, but for what it answers to `TIOCGRS485` and `TIOCSRS485`. -/
def Port.Os.answering {β : Type} (os : Os β) (get set report : Option Errno) : Os β :=
  { os with fails := fun site => match site with
      | .rs485Get => get
      | .rs485Set => set
      | .rs485Report => report
      | site => os.fails site }

namespace Program

variable {β : Type} (os : Os β) (get set report : Option Errno)

theorem answering_self :
    os.answering (os.fails .rs485Get) (os.fails .rs485Set) (os.fails .rs485Report) = os := by
  unfold Os.answering
  congr 1
  funext site
  cases site <;> rfl

theorem openStage_answering (name : List UInt8) (opts : List UartOption) (p : Program β) :
    openStage (os.answering get set report) name opts p = openStage os name opts p := rfl

theorem configureStage_answering (opts : List UartOption) (p : Program β) :
    configureStage (os.answering get set report) opts p = configureStage os opts p := by
  unfold configureStage
  cases configure p.currentConfig opts with
  | none => rfl
  | some config =>
    dsimp only
    split
    · rfl
    · -- a closed port is not asked
      cases p.uart.fd <;> rfl

theorem stage_answering {command : Command} {opts : List UartOption}
    (asks : command.options? = some opts) (p : Program β) :
    p.stage (os.answering get set report) command = p.stage os command := by
  cases command with
  | «open» name opts' => exact openStage_answering os get set report name opts' p
  | configure opts' => exact configureStage_answering os get set report opts' p
  | _ => exact absurd asks (by simp [Command.options?])

theorem rest_answering (command : Command) :
    rest (os.answering get set (os.fails .rs485Report)) command = rest os command := by
  funext config q ⟨ok, dev⟩
  cases ok <;> cases command <;> rfl

variable {os}

/-- A call that comes to `uart_config_rs485` ends with what that returns. -/
theorem handleElixirRequest_answering {command : Command} {opts : List UartOption}
    (asks : command.options? = some opts) {p q : Program β} {tty : Tty} {config : UartConfig}
    (comes : p.stage os command = .rs485 tty config q) :
    p.handleElixirRequest (os.answering get set report) command =
      .ok (rest (os.answering get set report) command config q
        (uartConfigRs485 (os.answering get set report).fails config q.dev)) := by
  rw [handleElixirRequest_stage, stage_answering os get set report asks, comes]
  rfl

theorem handleElixirRequest_ended {command : Command} {opts : List UartOption}
    (asks : command.options? = some opts) {p : Program β} {r : Except Stop (Program β)}
    (ends : p.stage os command = .ended r) :
    p.handleElixirRequest (os.answering get set report) command = r := by
  rw [handleElixirRequest_stage, stage_answering os get set report asks, ends]
  rfl

/-! ## What is asked of one call -/

variable (os)

/-- A call with these options, made in `p`, touches RS485 as it was asked to; `mentioned` are the
options of the calls before it.

Whether `TIOCSRS485` was called shows in that what it answers makes a difference. -/
structure OnlyAsked (mentioned : List UartOption) (p : Program β) (command : Command)
    (opts : List UartOption) : Prop where
  /-- without an option, no `TIOCSRS485` -/
  silent : asksRs485 opts = false → ∀ set,
    p.handle (.request (os.answering (os.fails .rs485Get) set (os.fails .rs485Report)) command) =
      p.handle (.request os command)
  /-- without an option, no failure because of what `TIOCGRS485` or `TIOCSRS485` answers -/
  spared : asksRs485 opts = false → ∀ get set report,
    (p.handle (.request (os.answering get set report) command)).map Program.out =
      (p.handle (.request os command)).map Program.out
  /-- with one, what nobody mentioned stays -/
  kept : asksRs485 opts = true → ∀ q tty, p.handle (.request os command) = .ok q →
    (p.enter os).found os command = some tty → ∀ f, Unmentioned f (mentioned ++ opts) →
      f.ofDevice q.dev.tty.rs485 = f.ofDevice tty.rs485

/-- The device, as it was before, if a call comes to `uart_config_rs485`. -/
def comesTo (p : Program β) (command : Command) : Option Tty :=
  match p.stage os command with
  | .ended _ => none
  | .rs485 device _ _ => some device

/-- A call that comes to `uart_config_rs485` without an `rs485_*` option finds that the user has
never configured RS485; with one, and if the device answers, what is left in the configuration of
the fields that nobody mentioned is not set, or is what the device has. -/
def Unforced (mentioned : List UartOption) (p : Program β) (command : Command)
    (opts : List UartOption) : Prop :=
  ∀ tty, (p.enter os).comesTo os command = some tty →
    if asksRs485 opts then
      os.fails .rs485Get = none → os.fails .rs485Set = none →
        ∀ f, Unmentioned f (mentioned ++ opts) → f.ofConfig p.currentConfig < 0 ∨
          f.value (f.ofConfig p.currentConfig) = f.ofDevice tty.rs485
    else p.currentConfig.rs485UserConfigured = false

section OneCall

variable {os} {mentioned opts : List UartOption} {p : Program β} {command : Command}
  (asks : command.options? = some opts)

include asks

/-- A call that does not come to RS485 does as it was asked to. -/
theorem onlyAsked_of_ended {r : Except Stop (Program β)}
    (ends : (p.enter os).stage os command = .ended r) : OnlyAsked os mentioned p command opts := by
  have same (get set report : Option Errno) :
      p.handle (.request (os.answering get set report) command) = r :=
    handleElixirRequest_ended get set report asks ends
  have here : p.handle (.request os command) = r := by
    rw [← same (os.fails .rs485Get) (os.fails .rs485Set) (os.fails .rs485Report), answering_self]
  constructor
  · intro _ set
    exact (same _ _ _).trans here.symm
  · intro _ get set report
    rw [same, here]
  · intro _ q tty ran device f _
    have finds := stage_finds os (p.enter os) asks
    obtain rfl : r = .ok q := here.symm.trans ran
    rw [ends] at finds
    rw [finds tty device]

variable {tty : Tty} {config : UartConfig} {q : Program β}
  (comes : (p.enter os).stage os command = .rs485 tty config q)

include comes

/-- What a call that comes to RS485 ends with. -/
theorem handle_answering (get set report : Option Errno) :
    p.handle (.request (os.answering get set report) command) =
      .ok (rest (os.answering get set report) command config q
        (uartConfigRs485 (os.answering get set report).fails config q.dev)) :=
  handleElixirRequest_answering get set report asks comes

theorem handle_of_comes : p.handle (.request os command) =
    .ok (rest os command config q (uartConfigRs485 os.fails config q.dev)) := by
  have here := handle_answering asks comes (os.fails .rs485Get) (os.fails .rs485Set)
    (os.fails .rs485Report)
  rwa [answering_self] at here

/-- What `TIOCSRS485` answers makes a difference exactly if it is called. -/
theorem silent_iff :
    (∀ set, p.handle (.request
        (os.answering (os.fails .rs485Get) set (os.fails .rs485Report)) command) =
      p.handle (.request os command)) ↔
      ¬ (config.rs485UserConfigured = true ∧ os.fails .rs485Get = none) := by
  constructor
  · intro silent ⟨user, get⟩
    have differ := (silent (some .enotty)).trans (silent none).symm
    rw [handle_answering asks comes, handle_answering asks comes] at differ
    have outs := congrArg Program.out (Except.ok.inj differ)
    rw [out_rest, out_rest] at outs
    simp [uartConfigRs485, user, get, Dev.attempt, Os.answering] at outs
  · intro uncalled set
    have same : uartConfigRs485 (os.answering (os.fails .rs485Get) set
        (os.fails .rs485Report)).fails config q.dev = uartConfigRs485 os.fails config q.dev := by
      unfold uartConfigRs485
      split
      · next user =>
        obtain ⟨errno, fails⟩ := Option.ne_none_iff_exists'.mp fun get => uncalled ⟨user, get⟩
        unfold Dev.attempt Os.answering
        dsimp only
        rw [fails]
      · rfl
    rw [handle_answering asks comes, handle_of_comes asks comes, same, rest_answering]

/-- Without an option the flag of the configuration decides. -/
theorem onlyAsked_iff_of_unasked (unasked : asksRs485 opts = false) :
    OnlyAsked os mentioned p command opts ↔ config.rs485UserConfigured = false := by
  constructor
  · intro only
    by_contra user
    have user := Bool.eq_true_of_not_eq_false user
    -- the call would tell a device without RS485 from one with it
    have refused := only.spared unasked (some .enotty) none none
    have granted := only.spared unasked none none none
    have differ := refused.trans granted.symm
    rw [handle_answering asks comes, handle_answering asks comes] at differ
    have outs := Except.ok.inj differ
    rw [out_rest, out_rest] at outs
    simp [uartConfigRs485, user, Dev.attempt, Os.answering] at outs
  · intro user
    have through (fails : Fails) : uartConfigRs485 fails config q.dev = (true, q.dev) := by
      unfold uartConfigRs485
      rw [user]
      rfl
    constructor
    · intro _
      apply (silent_iff asks comes).mpr
      intro ⟨set, _⟩
      exact absurd (user.symm.trans set) (by simp)
    · intro _ get set report
      rw [handle_answering asks comes, handle_of_comes asks comes, through, through]
      refine congrArg Except.ok ?_
      rw [out_rest, out_rest]
    · intro asked
      exact absurd (unasked.symm.trans asked) (by simp)

/-- With one, the configuration decides field by field. -/
theorem onlyAsked_iff_of_asked (asked : asksRs485 opts = true) (user : config.rs485UserConfigured)
    (same : q.dev.tty.rs485 = tty.rs485) (device : (p.enter os).found os command = some tty) :
    OnlyAsked os mentioned p command opts ↔
      (os.fails .rs485Get = none → os.fails .rs485Set = none →
        ∀ f, Unmentioned f (mentioned ++ opts) → f.ofConfig config < 0 ∨
          f.value (f.ofConfig config) = f.ofDevice tty.rs485) := by
  have left : (rest os command config q (uartConfigRs485 os.fails config q.dev)).dev.tty.rs485 =
      if config.rs485UserConfigured = true ∧ os.fails .rs485Get = none ∧
          os.fails .rs485Set = none then rs485Options config tty.rs485 else tty.rs485 := by
    rw [tty_rest, uartConfigRs485_rs485, same]
  constructor
  · intro only get set f unmentioned
    have kept := only.kept asked _ tty (handle_of_comes asks comes) device f unmentioned
    rw [left, if_pos ⟨user, get, set⟩, ofDevice_rs485Options] at kept
    by_cases unset : f.ofConfig config < 0
    · exact .inl unset
    · rw [if_neg unset] at kept
      exact .inr kept
  · intro fields
    have unasked : asksRs485 opts ≠ false := by simp [asked]
    refine ⟨fun no => absurd no unasked, fun no => absurd no unasked, ?_⟩
    intro _ q' tty' ran device' f unmentioned
    obtain rfl := Option.some.inj (device.symm.trans device')
    obtain rfl := Except.ok.inj ((handle_of_comes asks comes).symm.trans ran)
    rw [left]
    -- the merge has been set only if both calls were answered
    split
    · next answered =>
      rw [ofDevice_rs485Options]
      obtain unset | same := fields answered.2.1 answered.2.2 f unmentioned
      · rw [if_pos unset]
      · rw [same, ite_self]
    · rfl

end OneCall

/-- **One call** touches RS485 as it was asked to, exactly if it is not forced. -/
theorem onlyAsked_iff {mentioned opts : List UartOption} {p : Program β} {command : Command}
    (asks : command.options? = some opts) :
    OnlyAsked os mentioned p command opts ↔ Unforced os mentioned p command opts := by
  have finds := stage_finds os (p.enter os) asks
  unfold Unforced comesTo
  cases stands : (p.enter os).stage os command with
  | ended r =>
    refine iff_of_true (onlyAsked_of_ended asks stands) fun tty comes => ?_
    exact absurd comes (by simp)
  | rs485 tty config q =>
    rw [stands] at finds
    obtain ⟨device, parsed, same⟩ := finds
    -- the configuration is the current one, but for what the call's own options set
    have leaves := configure_rs485 parsed
    simp only [Option.some.injEq, forall_eq']
    cases asked : asksRs485 opts with
    | false =>
      have user : config.rs485UserConfigured = p.currentConfig.rs485UserConfigured := by
        rw [leaves.user, asked, Bool.or_false]
        rfl
      rw [onlyAsked_iff_of_unasked asks stands asked, user]
      simp
    | true =>
      have user : config.rs485UserConfigured = true := by
        rw [leaves.user, asked, Bool.or_true]
      rw [onlyAsked_iff_of_asked asks stands asked user same device, if_pos rfl]
      refine forall_congr' fun _ => forall_congr' fun _ => forall_congr' fun f => ?_
      refine forall_congr' fun unmentioned => ?_
      have unmentioned_here : Unmentioned f opts :=
        fun o inside => unmentioned o (List.mem_append_right _ inside)
      rw [leaves.fields f unmentioned_here]
      rfl

/-! ## Every history -/

/-- The program, and the options of all opens and configures so far, whatever became of them. -/
structure Tracked (β : Type) where
  program : Program β := {}
  mentioned : List UartOption := []

/-- The options that an event mentions. -/
def Event.mentions : Event β → List UartOption
  | .request _ command => command.options?.getD []
  | .process _ => []

def Tracked.step (t : Tracked β) (e : Event β) : Option (Tracked β × List (Label β)) :=
  (t.program.step e).map fun r => (⟨r.1, t.mentioned ++ e.mentions⟩, r.2)

/-- Every open and configure touches RS485 as it was asked to. -/
def Tracked.OnlyAsked (t : Tracked β) : Event β → Prop
  | .request os command => ∀ opts, command.options? = some opts →
      Program.OnlyAsked os t.mentioned t.program command opts
  | .process _ => True

/-- No open and no configure is forced. -/
def Tracked.Unforced (t : Tracked β) : Event β → Prop
  | .request os command => ∀ opts, command.options? = some opts →
      Program.Unforced os t.mentioned t.program command opts
  | .process _ => True

/-- **RS485 is touched only when asked for**, throughout a run from any state, exactly if no open
or configure of the run is forced. -/
theorem everyStep_onlyAsked_iff (es : List (Event β)) (t : Tracked β) :
    EveryStep Tracked.step Tracked.OnlyAsked t es ↔
      EveryStep Tracked.step Tracked.Unforced t es := by
  refine everyStep_congr (I := fun _ => True) (E := fun _ => True) (fun _ _ _ _ _ _ _ _ => trivial)
    (fun t e _ _ _ _ _ => ?_) (fun _ _ => trivial) trivial
  cases e with
  | process os => exact Iff.rfl
  | request os command =>
    refine forall_congr' fun opts => forall_congr' fun asks => ?_
    exact onlyAsked_iff os asks

/-- A port is opened with an `rs485_*` option and closed, and one without RS485 is opened with no
option. -/
def openedElsewhere : List (Event UInt8) :=
  let noRs485 : Fails := fun site => match site with
    | .rs485Get | .rs485Set | .rs485Report => some .enotty
    | _ => none
  [.request { opened := fun _ => .ok (3, .raw) } (.open ttyS0 [.rs485Enabled true]),
    .request {} .close,
    .request { opened := fun _ => .ok (3, .raw), fails := noRs485 } (.open (ascii "ttyS1") [])]

/-- The second open fails because the device has no RS485. -/
theorem not_everyStep_onlyAsked_openedElsewhere :
    (∃ t sent, exec Tracked.step ({} : Tracked UInt8) openedElsewhere =
        some (t, sent ++ [.sent (.response (.error .enotty))])) ∧
      ¬ EveryStep Tracked.step Tracked.OnlyAsked ({} : Tracked UInt8) openedElsewhere := by
  refine ⟨⟨_, [_, _, _, _, _], rfl⟩, fun only => ?_⟩
  obtain ⟨-, only⟩ := only _ _ rfl
  obtain ⟨-, only⟩ := only _ _ rfl
  obtain ⟨only, -⟩ := only _ _ rfl
  have spared : (.ok [.response .ok] : Except Stop (List (Out UInt8))) =
      .ok [.response (.error .enotty)] := (only [] rfl).spared rfl none none none
  exact absurd (Except.ok.inj spared) (by simp)

end Program

end CircuitsUart
