import CircuitsUart.System.Mode
import CircuitsUart.Port.Refused

/-!
# A configure that fails

`configure/2` changes the GenServer's state before the C program is asked, and the C program
changes its mode and the device before it knows whether it succeeds. Only `current_config` is
kept when it does not. `Harmless` says, of the options and the state before the call, when a
failure changes nothing all the same.

The condition has a half for each process, and they are as different as the two. The GenServer's is
about what the options ask for: nothing it does not have already. The C program's is about how far
the device let it come, which `Port.Refused` computes from the configuration, the device and the
calls that fail.
-/

set_option autoImplicit false

namespace CircuitsUart.Mode

open Lib Port Server

variable {β : Type}

/-- What a failed configure is to leave alone. -/
structure Unchanged (σ σ' : Pair β) : Prop where
  framer : σ'.state.framer = σ.state.framer
  isActive : σ'.state.isActive = σ.state.isActive
  id : σ'.state.id = σ.state.id
  rxFramingTimeout : σ'.state.rxFramingTimeout = σ.state.rxFramingTimeout
  currentConfig : σ'.program.currentConfig = σ.program.currentConfig
  mode : σ'.program.uart.activeModeEnabled = σ.program.uart.activeModeEnabled
  tty : σ'.program.dev.tty = σ.program.dev.tty

/-- A call was replied `{:error, reason}`. -/
def Refused (out : List (Label β)) : Prop :=
  ∃ fromPid reason, .replied fromPid (.port (.error reason)) ∈ out

/-- The options ask the GenServer for what there is already; for the framing, that is a framer
that holds nothing. -/
structure AsksNothing (s : State β) (opts : List UartOption) : Prop where
  framer : match keywordGet (fun o => o.framing?.map some) opts none with
    | none => True
    | some (.module framing) => s.framer = .init framing {}
    | some (.withArgs framing args) => s.framer = .init framing args
  isActive : keywordGet UartOption.active? opts s.isActive = s.isActive
  id : keywordGet UartOption.id? opts s.id = s.id
  rxFramingTimeout : keywordGet UartOption.rxFramingTimeout? opts s.rxFramingTimeout =
    s.rxFramingTimeout

/-- Nothing is lost if the call fails: it asks the GenServer for nothing new, and where the device
refuses it, it asks the C program for the mode there is, and what has been set on the device when
it fails is what the device had. -/
def Harmless (σ : Pair β) : Event β → Prop
  | .call os _ (.configure opts) =>
    match Port.configure σ.program.currentConfig opts with
    | none => AsksNothing σ.state opts
    | some config => σ.program.uart.fd.isSome = true →
        ∀ point, failsAt os.fails config σ.program.dev.tty = some point →
          AsksNothing σ.state opts ∧ config.active = σ.program.uart.activeModeEnabled ∧
            Keeps os.fails config σ.program.dev.tty point
  | _ => True

/-- What is asked of a configure: if it fails, it changes nothing. -/
def FailsClean [Octet β] (σ : Pair β) : Event β → Prop
  | .call os fromPid (.configure opts) => ∀ σ' out,
      step σ (.call os fromPid (.configure opts)) = some (σ', out) → Refused out → Unchanged σ σ'
  | _ => True

/-- The GenServer's half of it. -/
theorem asksNothing_iff (s : State β) (timers : Timers) (fromPid : Pid) (opts : List UartOption) :
    AsksNothing s opts ↔
      (Server.handleConfigure s timers fromPid opts).state.framer = s.framer ∧
        (Server.handleConfigure s timers fromPid opts).state.isActive = s.isActive ∧
        (Server.handleConfigure s timers fromPid opts).state.id = s.id ∧
        (Server.handleConfigure s timers fromPid opts).state.rxFramingTimeout =
          s.rxFramingTimeout := by
  have framer : (match keywordGet (fun o => o.framing?.map some) opts none with
      | none => True
      | some (.module framing) => s.framer = .init framing {}
      | some (.withArgs framing args) => s.framer = .init framing args) ↔
      (Server.handleConfigure s timers fromPid opts).state.framer = s.framer := by
    unfold Server.handleConfigure callPort
    dsimp only
    rcases keywordGet (fun o => o.framing?.map some) opts none with _ | ⟨framing⟩ | ⟨framing, args⟩
    · exact iff_of_true trivial rfl
    · exact eq_comm
    · exact eq_comm
  rw [handleConfigure_isActive, handleConfigure_id,
    (handleConfigure_options s timers fromPid opts).timeout]
  constructor
  · intro h
    exact ⟨framer.mp h.framer, h.isActive, h.id, h.rxFramingTimeout⟩
  · rintro ⟨hframer, hactive, hid, htimeout⟩
    exact ⟨framer.mpr hframer, hactive, hid, htimeout⟩

/-- A failed configure of an open port: how far it got, and what is left. -/
theorem uartConfigure_failed {os : Os β} {config : UartConfig} {p q : Program β}
    (h : p.uartConfigure os config = .ok (false, q)) : p.uart.fd.isSome = true ∧
      ∃ point, failsAt os.fails config p.dev.tty = some point ∧
        q.dev.tty = settingsAt os.fails config p.dev.tty point := by
  obtain ⟨-, -, -, closed, opened⟩ := Program.uartConfigure_eq_ok h
  have isOpen : p.uart.fd.isSome = true := by
    by_contra shut
    have failed := (closed (Option.not_isSome_iff_eq_none.mp shut)).1
    exact absurd failed (by simp)
  have stops := configureDevice_stops os.fails config p.dev
  rw [opened isOpen] at stops
  cases hfails : failsAt os.fails config p.dev.tty with
  | none =>
    rw [hfails] at stops
    exact absurd stops.1 (by simp)
  | some point =>
    rw [hfails] at stops
    exact ⟨isOpen, point, rfl, stops.2⟩

theorem uartConfigure_succeeded {os : Os β} {config : UartConfig} {p q : Program β}
    (h : p.uartConfigure os config = .ok (true, q)) (isOpen : p.uart.fd.isSome = true) :
    failsAt os.fails config p.dev.tty = none := by
  obtain ⟨-, -, -, -, opened⟩ := Program.uartConfigure_eq_ok h
  have stops := configureDevice_stops os.fails config p.dev
  rw [opened isOpen] at stops
  cases hfails : failsAt os.fails config p.dev.tty with
  | none => rfl
  | some point =>
    rw [hfails] at stops
    exact absurd stops.1 (by simp)

variable [Octet β]

omit [Octet β] in
theorem refused_replied (fromPid : Pid) (r : Response β) :
    Refused [.replied fromPid (.port r)] ↔ ∃ reason, r = .error reason := by
  constructor
  · intro ⟨fromPid', reason, mem⟩
    have same := List.mem_singleton.mp mem
    simp only [Label.replied.injEq, Reply.port.injEq] at same
    exact ⟨reason, same.2.symm⟩
  · intro ⟨reason, error⟩
    exact ⟨fromPid, reason, by rw [error]; exact List.mem_singleton.mpr rfl⟩

/-- **One configure** changes nothing if it fails, exactly if it is harmless. -/
theorem step_configure_iff {σ σ' : Pair β} {os : Os β} {fromPid : Pid} {opts : List UartOption}
    {out : List (Label β)} (h : step σ (.call os fromPid (.configure opts)) = some (σ', out)) :
    (Refused out → Unchanged σ σ') ↔ Harmless σ (.call os fromPid (.configure opts)) := by
  obtain ⟨pending, r, ran, hpending, hprogram, hresume, hresponse, hstate, hout⟩ := step_call h
  obtain rfl := Option.some.inj hpending
  obtain rfl := Option.some.inj hresume
  have refused : Refused out ↔ ∃ reason, r = .error reason := by
    rw [show out = [.replied fromPid (.port r)] from hout]
    exact refused_replied fromPid r
  have hstate : σ'.state = (Server.handleConfigure σ.state σ.timers fromPid opts).state := hstate
  -- what is left to ask is the half of the C program
  have whole : Unchanged σ σ' ↔ AsksNothing σ.state opts ∧
      σ'.program.currentConfig = σ.program.currentConfig ∧
      σ'.program.uart.activeModeEnabled = σ.program.uart.activeModeEnabled ∧
      σ'.program.dev.tty = σ.program.dev.tty := by
    rw [asksNothing_iff σ.state σ.timers fromPid opts, ← hstate]
    constructor
    · intro u
      exact ⟨⟨u.framer, u.isActive, u.id, u.rxFramingTimeout⟩, u.currentConfig, u.mode, u.tty⟩
    · rintro ⟨⟨framer, isActive, id, timeout⟩, config, mode, tty⟩
      exact ⟨framer, isActive, id, timeout, config, mode, tty⟩
  have ways := Program.handleConfigure_cases os opts (σ.program.enter os)
  rw [show (σ.program.enter os).handleConfigure os opts = .ok σ'.program from hprogram] at ways
  have ways : (σ.program.enter os).Configuring os opts σ'.program := ways
  rw [refused, whole, Harmless]
  generalize σ'.program = q at ways hresponse
  cases ways with
  | refused unparsed =>
    obtain rfl := Option.some.inj hresponse
    rw [show Port.configure σ.program.currentConfig opts = none from unparsed]
    constructor
    · intro clean
      exact (clean ⟨_, rfl⟩).1
    · intro asks _
      exact ⟨asks, rfl, rfl, rfl⟩
  | @failed config q parsed tried =>
    obtain ⟨uart, sameConfig, sameOut, -⟩ := Program.uartConfigure_eq_ok tried
    obtain ⟨isOpen, point, hfails, tty⟩ := uartConfigure_failed tried
    have failed : ∃ reason, r = .error reason :=
      ⟨_, (Option.some.inj ((response_error sameOut q.lastError).symm.trans hresponse)).symm⟩
    rw [show Port.configure σ.program.currentConfig opts = some config from parsed]
    have mode : (q.sendErrorResponse q.lastError).uart.activeModeEnabled = config.active :=
      congrArg Uart.activeModeEnabled uart
    have kept : (q.sendErrorResponse q.lastError).dev.tty = σ.program.dev.tty ↔
        Keeps os.fails config σ.program.dev.tty point := by
      rw [← settingsAt_eq_iff]
      exact Eq.congr_left tty
    rw [mode, kept]
    constructor
    · intro clean _ point' hfails'
      obtain rfl := Option.some.inj (hfails.symm.trans hfails')
      obtain ⟨asks, -, hmode, hkept⟩ := clean failed
      exact ⟨asks, hmode, hkept⟩
    · intro harmless _
      obtain ⟨asks, hmode, hkept⟩ := harmless isOpen point hfails
      exact ⟨asks, sameConfig, hmode, hkept⟩
  | @configured config q parsed tried =>
    obtain ⟨-, -, sameOut, -⟩ := Program.uartConfigure_eq_ok tried
    have succeeded : ¬ ∃ reason, r = .error reason := by
      have unsent : (q.adopt os config).out = [] := (Program.out_adopt os config q).trans sameOut
      obtain rfl := Option.some.inj ((response_ok unsent).symm.trans hresponse)
      simp
    rw [show Port.configure σ.program.currentConfig opts = some config from parsed]
    refine iff_of_true (fun failed => absurd failed succeeded) fun isOpen point hfails => ?_
    have goes := uartConfigure_succeeded tried isOpen
    exact absurd (goes.symm.trans hfails) (by simp)

/-- **A failed configure changes nothing**, in a run from any state, exactly if every configure
of the run is harmless. -/
theorem everyStep_failsClean_iff (es : List (Event β)) (σ : Pair β) :
    EveryStep step FailsClean σ es ↔ EveryStep step Harmless σ es := by
  refine everyStep_congr (I := fun _ => True) (E := fun _ => True) (fun _ _ _ _ _ _ _ _ => trivial)
    (fun σ e σ' out _ _ took => ?_) (fun _ _ => trivial) trivial
  cases e with
  | process os => exact Iff.rfl
  | call os fromPid call =>
    cases call with
    | «open» name opts => exact Iff.rfl
    | close => exact Iff.rfl
    | configure opts =>
      constructor
      · intro clean
        exact (step_configure_iff took).mp (clean σ' out took)
      · intro harmless σ'' out' took'
        exact (step_configure_iff took').mpr harmless

/-- A port with eight data bits that cannot be changed is opened, and asked for seven in passive
mode. -/
def unsupported : List (Event UInt8) :=
  let tty : Tty := { Tty.raw with
    termios := { Tty.raw.termios with cflag := CS8 }
    applied := ~~~CSIZE }
  [.call { opened := fun _ => .ok (3, tty) } 0 (.open ttyS0 []),
    .call {} 0 (.configure [.active false, .dataBits 7])]

/-- The answer is `{:error, :einval}`, and both sides are in passive mode. -/
theorem not_everyStep_failsClean_unsupported :
    ¬ EveryStep step FailsClean ({} : Pair UInt8) unsupported := by
  intro clean
  obtain ⟨-, clean⟩ := clean _ _ rfl
  obtain ⟨clean, -⟩ := clean _ _ rfl
  have unchanged := clean _ _ rfl ⟨0, .einval, .head _⟩
  exact absurd unchanged.isActive (by decide)

end CircuitsUart.Mode
