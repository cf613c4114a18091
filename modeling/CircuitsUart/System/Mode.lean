import CircuitsUart.Server.System
import CircuitsUart.Port.Failure

/-!
# Who is in which mode

The GenServer keeps `is_active` and the C program `active_mode_enabled`, and each computes
it from the option list by its own rules. Here the two run in turn: a call is a round trip,
`handle_call/3` up to its request, the C program's handler, and the rest of the callback on
the response; between two calls the C program's main loop may run.

`Agree` is that the two modes are the same. `Asks` says, from the options and the state
before a call, when they still are after it.

This is a smaller system than `System`. There are no pipes and no interleaving, because nothing
that is asked here depends on them: the mode is set by three calls, each of which waits for its
answer, and neither a notification nor a timer touches it. `Pair` is the state between two calls,
and it serves for what else the two processes each keep of an option list (`System.Defaults`,
`System.Unchanged`).
-/

set_option autoImplicit false

namespace CircuitsUart.Program

open Port

variable {β : Type}

/-! ## The mode of the C program -/

/-- The mode a program is in. -/
abbrev mode (p : Program β) : Bool := p.uart.activeModeEnabled

theorem mode_uartOpen (os : Os β) (name : List UInt8) (config : UartConfig) (p : Program β) :
    (uartOpen os name config p).2.mode = if os.pathOk then config.active else p.mode := by
  unfold uartOpen nameToDeviceFile
  cases os.pathOk with
  | false => rfl
  | true =>
    have found : ∃ path, (if name.head? = some 0x2f ∨ name.head? = some 0x2e then some name
        else some ("/dev/".toUTF8.toList ++ name)) = some path := by
      split <;> exact ⟨_, rfl⟩
    obtain ⟨path, hpath⟩ := found
    rw [if_pos rfl, if_pos rfl, hpath]
    split
    · next missing => exact absurd missing (by simp)
    · split
      · rfl
      · dsimp only
        split <;> rfl

theorem mode_handleOpen (os : Os β) (name : List UInt8) (opts : List UartOption) (p : Program β) :
    (p.handleOpen os name opts).mode =
      if name.length < 64 ∧ (configure p.currentConfig opts).isSome ∧ os.pathOk then
        lastActive opts p.currentConfig.active
      else p.mode := by
  have ways := handleOpen_cases os name opts p
  generalize p.handleOpen os name opts = q at ways
  -- `uart_open` sets the mode as soon as it has the path
  have set : ∀ {config : UartConfig}, configure p.currentConfig opts = some config →
      name.length < 64 → (uartOpen os (cString name) config p.shut).2.mode =
        if name.length < 64 ∧ (configure p.currentConfig opts).isSome ∧ os.pathOk then
          lastActive opts p.currentConfig.active
        else p.mode := by
    intro config parsed short
    have opened := mode_uartOpen os (cString name) config p.shut
    rw [configure_active parsed, show p.shut.mode = p.mode from p.shut_steady.mode] at opened
    simp only [parsed, short, Option.isSome_some, true_and]
    exact opened
  cases ways with
  | refused reason unfit =>
    show p.mode = _
    rw [if_neg]
    rintro ⟨short, parsed, -⟩
    rw [unfit short] at parsed
    exact absurd parsed (by simp)
  | @failed config q short parsed tried =>
    rw [← set parsed short, tried]
    rfl
  | @opened config q short parsed tried =>
    rw [← set parsed short, tried]
    exact congrArg Uart.activeModeEnabled (uart_adopt os config q)

theorem mode_handleConfigure {os : Os β} {opts : List UartOption} {p q : Program β}
    (h : p.handleConfigure os opts = .ok q) :
    q.mode = if (configure p.currentConfig opts).isSome then
      lastActive opts p.currentConfig.active else p.mode := by
  have ways := handleConfigure_cases os opts p
  rw [h] at ways
  have ways : Configuring os opts p q := ways
  have set : ∀ {config : UartConfig} {ok : Bool} {q : Program β},
      configure p.currentConfig opts = some config → p.uartConfigure os config = .ok (ok, q) →
        q.mode = lastActive opts p.currentConfig.active := by
    intro config ok q parsed tried
    rw [mode, (uartConfigure_eq_ok tried).1]
    exact configure_active parsed
  cases ways with
  | refused unparsed =>
    rw [unparsed]
    rfl
  | @failed config q parsed tried =>
    have same : q.mode = lastActive opts p.currentConfig.active := set parsed tried
    rw [parsed]
    exact same
  | @configured config q parsed tried =>
    have same : q.mode = lastActive opts p.currentConfig.active := set parsed tried
    rw [parsed]
    exact (congrArg Uart.activeModeEnabled (uart_adopt os config q)).trans same

end CircuitsUart.Program

namespace CircuitsUart.Mode

open Lib Port Server

/-- The calls that set the mode. -/
inductive Call
  | open (name : List UInt8) (opts : List UartOption)
  | close
  | configure (opts : List UartOption)

def Call.call : Call → Server.Call
  | .open name opts => .open name opts
  | .close => .close
  | .configure opts => .configure opts

/-- The GenServer between two calls, and the C program between two events. -/
structure Pair (β : Type) where
  state : State β := {}
  timers : Timers := {}
  program : Program β := {}

inductive Event (β : Type)
  | call (os : Os β) (fromPid : Pid) (call : Call)
  | process (os : Os β)

variable {β : Type}

/-- The response among what the C program wrote. -/
def response (out : List (Out β)) : Option (Response β) :=
  out.findSome? fun
    | .response r => some r
    | .notif _ => none

/-- An error is sent after what was sent before. -/
theorem response_error {q : Program β} (unsent : q.out = []) (reason : Reason) :
    response (q.sendErrorResponse reason).out = some (.error reason) := by
  show response (q.out ++ [.response (.error reason)]) = _
  rw [unsent]
  rfl

theorem response_ok {q : Program β} (unsent : q.out = []) :
    response q.sendOkResponse.out = some .ok := by
  show response (q.out ++ [.response .ok]) = _
  rw [unsent]
  rfl

variable [Octet β]

/-- One call from its beginning to its reply, or one turn of the C program's loop. -/
def step (σ : Pair β) : Event β → Option (Pair β × List (Label β))
  | .process os =>
    match σ.program.handle (.process os) with
    | .error _ => none
    | .ok program => some ({ σ with program := program }, [])
  | .call os fromPid call =>
    let ran := handleCall σ.state σ.timers fromPid 0 call.call
    match ran.pending with
    | none => none
    | some pending =>
      match σ.program.handle (.request os pending.command) with
      | .error _ => none
      | .ok program =>
        match response program.out with
        | none => none
        | some r =>
          match resume ran.state ran.timers pending 0 0 r with
          | none => none
          | some ran' => some (⟨ran'.state, ran'.timers, program⟩, ran'.out)

/-- The two processes are in the same mode. -/
def Agree (σ : Pair β) : Prop := σ.state.isActive = σ.program.uart.activeModeEnabled

instance (σ : Pair β) : Decidable (Agree σ) := inferInstanceAs (Decidable (_ = _))

/-- The mode an option list asks of the C program, if it gets as far as setting it. -/
def modeOf (p : Program β) (opts : List UartOption) : Bool := lastActive opts p.currentConfig.active

/-- What the options make of the mode is the same on both sides: the first `:active`, or the
GenServer's default, and the last `:active`, or the C program's last configuration, where it
gets so far; otherwise the mode there was. -/
def Asks (σ : Pair β) : Event β → Prop
  | .process _ => True
  | .call _ _ .close => True
  | .call os _ (.open name opts) =>
    keywordGet UartOption.active? opts true =
      if name.length < 64 ∧ (Port.configure σ.program.currentConfig opts).isSome ∧ os.pathOk then
        modeOf σ.program opts
      else σ.program.uart.activeModeEnabled
  | .call _ _ (.configure opts) =>
    keywordGet UartOption.active? opts σ.state.isActive =
      if (Port.configure σ.program.currentConfig opts).isSome then modeOf σ.program opts
      else σ.program.uart.activeModeEnabled

/-- What a call does: the GenServer's request is handled, and the response resumes it. -/
theorem step_call {σ σ' : Pair β} {os : Os β} {fromPid : Pid} {call : Call}
    {out : List (Label β)} (h : step σ (.call os fromPid call) = some (σ', out)) :
    ∃ pending r ran,
      (handleCall σ.state σ.timers fromPid 0 call.call).pending = some pending ∧
      σ.program.handle (.request os pending.command) = .ok σ'.program ∧
      resume (handleCall σ.state σ.timers fromPid 0 call.call).state
        (handleCall σ.state σ.timers fromPid 0 call.call).timers pending 0 0 r = some ran ∧
      response σ'.program.out = some r ∧ σ'.state = ran.state ∧ out = ran.out := by
  simp only [step] at h
  split at h
  · exact absurd h (by simp)
  · next pending hpending =>
    split at h
    · exact absurd h (by simp)
    · next program hprogram =>
      split at h
      · exact absurd h (by simp)
      · next r hr =>
        split at h
        · exact absurd h (by simp)
        · next ran hran =>
          obtain ⟨rfl, rfl⟩ := Prod.mk.inj (Option.some.inj h)
          exact ⟨pending, r, ran, hpending, hprogram, hran, hr, rfl, rfl⟩

/-- **One call** keeps the two modes the same exactly when both sides make the same of its
options. -/
theorem step_agree_iff {σ σ' : Pair β} {e : Event β} {out : List (Label β)} (hσ : Agree σ)
    (h : step σ e = some (σ', out)) : Agree σ' ↔ Asks σ e := by
  cases e with
  | process os =>
    simp only [step] at h
    split at h
    · exact absurd h (by simp)
    · next program hp =>
      obtain ⟨rfl, -⟩ := Prod.mk.inj (Option.some.inj h)
      have steady := Program.uartProcess_steady os (σ.program.enter os)
      rw [show (σ.program.enter os).uartProcess os = .ok program from hp] at steady
      have same : program.mode = σ.program.mode := steady.mode
      exact iff_of_true (hσ.trans same.symm) trivial
  | call os fromPid call =>
    obtain ⟨pending, r, ran, hpending, hprogram, hresume, -, hstate, -⟩ := step_call h
    cases call with
    | «open» name opts =>
      obtain rfl := Option.some.inj hpending
      obtain rfl := Option.some.inj hresume
      have active : σ'.state.isActive = keywordGet UartOption.active? opts true := by
        rw [hstate, resumeOpening_isActive]
      have mode := Program.mode_handleOpen os name opts (σ.program.enter os)
      rw [Except.ok.inj hprogram] at mode
      rw [Agree, active, Asks]
      exact Eq.congr_right mode
    | close =>
      obtain rfl := Option.some.inj hpending
      obtain rfl := Option.some.inj hresume
      have active : σ'.state.isActive = σ.state.isActive := by
        rw [hstate, resumeClosing, replyWith, handleFramingTimer_isActive]
        rfl
      have mode := (Program.handleClose_steady (σ.program.enter os)).mode
      rw [Except.ok.inj hprogram] at mode
      refine iff_of_true ?_ trivial
      exact active.trans (hσ.trans mode.symm)
    | configure opts =>
      obtain rfl := Option.some.inj hpending
      obtain rfl := Option.some.inj hresume
      have active : σ'.state.isActive =
          keywordGet UartOption.active? opts σ.state.isActive := by
        rw [hstate]
        exact handleConfigure_isActive σ.state σ.timers fromPid opts
      have mode := Program.mode_handleConfigure hprogram
      rw [Agree, active, Asks]
      exact Eq.congr_right mode

/-- **The modes agree after every reply exactly when every call asks the same of both sides.** -/
theorem everyState_agree_iff (es : List (Event β)) :
    EveryState step Agree ({} : Pair β) es ↔ EveryStep step Asks ({} : Pair β) es :=
  everyState_iff_everyStep (I := fun _ => True) (fun _ _ _ _ _ _ => trivial)
    (fun _ _ _ _ _ hσ h => step_agree_iff hσ h) trivial rfl

/-- A port is opened in passive mode and closed, and opened again without `:active`. -/
def reopened : List (Event UInt8) :=
  let os : Os UInt8 := { opened := fun _ => .ok (3, .raw) }
  [.call os 0 (.open ttyS0 [.active false]), .call os 0 .close, .call os 0 (.open ttyS0 [])]

/-- The GenServer is in active mode, the C program still in passive mode. -/
theorem not_agree_reopened : ¬ EveryState step Agree ({} : Pair UInt8) reopened := by
  intro h
  have hlast := h.of_exec (rfl : exec step {} reopened = some (_, _))
  exact absurd hlast (by decide)

end CircuitsUart.Mode
