import CircuitsUart.System.Mode

/-!
# The options an open leaves out

The GenServer takes its defaults for `:active` and `:id` from `open/3`, but keeps the framing it
has; the C program takes what `current_config` has, whatever port that was for. So the defaults
hold after an open exactly if there is nothing to be remembered.

`HasDefaults` is what `open/3` documents, option by option, each only where the options leave it
out. `NothingKept` looks at the state before the call. The theorem is about every open of a run
that succeeds, the failed ones being free to leave anything behind, which the next open then
finds.
-/

set_option autoImplicit false

namespace CircuitsUart.Mode

open Lib Port Server

variable {β : Type}

/-- A call was replied `:ok`. -/
def Accepted (out : List (Label β)) : Prop := ∃ fromPid, .replied fromPid (.port .ok) ∈ out

/-- No option has the key. -/
def Absent {α : Type} (value : UartOption → Option α) (opts : List UartOption) : Prop :=
  ∀ o ∈ opts, value o = none

/-- The documented defaults, for the options that are left out: both sides are in active mode,
data is not framed, and messages carry the name of the port. -/
structure HasDefaults (name : List UInt8) (opts : List UartOption) (σ : Pair β) : Prop where
  active : Absent UartOption.active? opts →
    σ.state.isActive = true ∧ σ.program.uart.activeModeEnabled = true
  framing : Absent UartOption.framing? opts → σ.state.framer = .none
  id : Absent UartOption.id? opts → messageId σ.state = .name (.name name)

/-- What is asked of an open: if it succeeds, the defaults hold. -/
def OpensWithDefaults [Octet β] (σ : Pair β) : Event β → Prop
  | .call os fromPid (.open name opts) => ∀ σ' out,
      step σ (.call os fromPid (.open name opts)) = some (σ', out) → Accepted out →
        HasDefaults name opts σ'
  | _ => True

/-- A successful open finds nothing remembered of what its options leave out: the last
configuration was in active mode, and data is not framed. -/
def NothingKept (σ : Pair β) : Event β → Prop
  | .call os _ (.open name opts) => ∀ config q, name.length < 64 →
      Port.configure σ.program.currentConfig opts = some config →
      Program.uartOpen os (Program.cString name) config (σ.program.enter os).shut = (true, q) →
        (Absent UartOption.active? opts → σ.program.currentConfig.active = true) ∧
          (Absent UartOption.framing? opts → σ.state.framer = .none)
  | _ => True

/-! ## Options that are left out -/

theorem keywordGet_absent {α : Type} {value : UartOption → Option α} {opts : List UartOption}
    (absent : Absent value opts) (default : α) : keywordGet value opts default = default := by
  have missing : opts.findSome? value = none := List.findSome?_eq_none_iff.mpr absent
  rw [keywordGet, missing]
  rfl

theorem lastActive_absent {opts : List UartOption} (absent : Absent UartOption.active? opts)
    (active : Bool) : lastActive opts active = active := by
  induction opts with
  | nil => rfl
  | cons o opts ih =>
    have skipped : lastActive (o :: opts) active = lastActive opts active := by
      unfold lastActive
      rw [List.foldl_cons, absent o List.mem_cons_self]
      rfl
    rw [skipped]
    exact ih fun o' ho' => absent o' (List.mem_cons_of_mem o ho')

theorem framing_absent {opts : List UartOption} (absent : Absent UartOption.framing? opts) :
    keywordGet (fun o => o.framing?.map some) opts none = none := by
  apply keywordGet_absent
  intro o ho
  show o.framing?.map some = none
  rw [absent o ho]
  rfl

/-! ## One open -/

/-- The GenServer after an open. -/
theorem resumeOpening_defaults (s : State β) (timers : Timers) (fromPid : Pid) (name : List UInt8)
    (opts : List UartOption) (r : Response β) :
    (Absent UartOption.active? opts →
        (resumeOpening s timers fromPid name opts r).state.isActive = true) ∧
      (Absent UartOption.framing? opts →
        (resumeOpening s timers fromPid name opts r).state.framer = s.framer) ∧
      (Absent UartOption.id? opts →
        messageId (resumeOpening s timers fromPid name opts r).state = .name (.name name)) := by
  refine ⟨fun absent => ?_, fun absent => ?_, fun absent => ?_⟩
  · rw [resumeOpening_isActive]
    exact keywordGet_absent absent true
  · exact (resumeOpening_options s timers fromPid name opts r).framer (framing_absent absent)
  · rw [messageId, resumeOpening_id, keywordGet_absent absent, resumeOpening_name]

/-- The response to an open is the one it is replied. -/
theorem accepted_opening (s : State β) (timers : Timers) (fromPid : Pid) (name : List UInt8)
    (opts : List UartOption) (r : Response β) :
    Accepted (resumeOpening s timers fromPid name opts r).out ↔ r = .ok := by
  show Accepted (reframed opts ++ [.replied fromPid (.port r)]) ↔ _
  constructor
  · rintro ⟨fromPid', mem⟩
    rcases List.mem_append.mp mem with early | last
    · unfold reframed at early
      split at early
      · simp at early
      · exact absurd early (by simp)
    · simp only [List.mem_singleton, Label.replied.injEq, Reply.port.injEq] at last
      exact last.2.symm
  · rintro rfl
    exact ⟨fromPid, List.mem_append_right _ (List.mem_singleton.mpr rfl)⟩

/-- A successful open takes the mode from `current_config`, if the options leave it out. -/
theorem opened_mode {os : Os β} {name : List UInt8} {opts : List UartOption}
    {config : UartConfig} {p q : Program β} (parsed : Port.configure p.currentConfig opts = some config)
    (tried : Program.uartOpen os name config p.shut = (true, q))
    (absent : Absent UartOption.active? opts) :
    (q.adopt os config).uart.activeModeEnabled = p.currentConfig.active := by
  rw [Program.uart_adopt, (Program.uartOpen_opened tried).2, configure_active parsed]
  exact lastActive_absent absent _

variable [Octet β]

/-- **One open** has the defaults exactly if nothing was kept. -/
theorem step_open_iff {σ σ' : Pair β} {os : Os β} {fromPid : Pid} {name : List UInt8}
    {opts : List UartOption} {out : List (Label β)} (idle : σ.program.pending = false)
    (h : step σ (.call os fromPid (.open name opts)) = some (σ', out)) :
    (Accepted out → HasDefaults name opts σ') ↔
      NothingKept σ (.call os fromPid (.open name opts)) := by
  obtain ⟨pending, r, ran, hpending, hprogram, hresume, hresponse, hstate, rfl⟩ := step_call h
  obtain rfl := Option.some.inj hpending
  obtain rfl := Option.some.inj hresume
  obtain ⟨isActive, framer, id⟩ := resumeOpening_defaults σ.state σ.timers fromPid name opts r
  rw [show (resumeOpening σ.state σ.timers fromPid name opts r).state = σ'.state from
    hstate.symm] at isActive framer id
  have accepted : Accepted (resumeOpening σ.state σ.timers fromPid name opts r).out ↔ r = .ok :=
    accepted_opening _ _ _ _ _ _
  have idle : (σ.program.enter os).pending = false := idle
  have unsent : (σ.program.enter os).shut.out = [] := (Program.shut_idle idle).2
  have ways := Program.handleOpen_cases os name opts (σ.program.enter os)
  have ran : (σ.program.enter os).handleOpen os name opts = σ'.program := Except.ok.inj hprogram
  rw [← ran] at hresponse
  have mode : σ'.program.uart.activeModeEnabled =
    ((σ.program.enter os).handleOpen os name opts).uart.activeModeEnabled := by rw [ran]
  generalize (σ.program.enter os).handleOpen os name opts = p' at ways hresponse mode
  cases ways with
  | refused reason unfit =>
    have failed := (response_error rfl reason).symm.trans hresponse
    refine iff_of_true (fun ok => ?_) fun config q short parsed tried => ?_
    · rw [accepted.mp ok] at failed
      exact absurd failed (by simp)
    · exact absurd (parsed.symm.trans (unfit short)) (by simp)
  | @failed config q short parsed tried =>
    have unsent' : q.out = [] := by
      have := Program.out_uartOpen os (Program.cString name) config (σ.program.enter os).shut
      rw [tried] at this
      exact this.trans unsent
    have failed := (response_error unsent' q.lastError).symm.trans hresponse
    refine iff_of_true (fun ok => ?_) fun config' q' short' parsed' tried' => ?_
    · rw [accepted.mp ok] at failed
      exact absurd failed (by simp)
    · obtain rfl := Option.some.inj (parsed.symm.trans parsed')
      exact absurd (tried.symm.trans tried') (by simp)
  | @opened config q short parsed tried =>
    have unsent' : (q.adopt os config).out = [] := by
      have := Program.out_uartOpen os (Program.cString name) config (σ.program.enter os).shut
      rw [tried] at this
      exact (Program.out_adopt os config q).trans (this.trans unsent)
    have ok : r = .ok := (Option.some.inj ((response_ok unsent').symm.trans hresponse)).symm
    have taken := opened_mode parsed tried
    constructor
    · intro defaults config' q' short' parsed' tried'
      have holds := defaults (accepted.mpr ok)
      refine ⟨fun absent => ?_, fun absent => ?_⟩
      · exact (taken absent).symm.trans (mode.symm.trans (holds.active absent).2)
      · exact (framer absent).symm.trans (holds.framing absent)
    · intro kept _
      obtain ⟨active, unframed⟩ := kept config q short parsed tried
      refine ⟨fun absent => ⟨isActive absent, ?_⟩, fun absent => ?_, id⟩
      · exact mode.trans ((taken absent).trans (active absent))
      · exact (framer absent).trans (unframed absent)

/-! ## Runs -/

/-- Between two events nothing is pending: none of the calls leaves an operation behind. -/
theorem step_idle {σ σ' : Pair β} {e : Event β} {out : List (Label β)}
    (idle : σ.program.pending = false) (h : step σ e = some (σ', out)) :
    σ'.program.pending = false := by
  cases e with
  | process os =>
    simp only [step] at h
    split at h
    · exact absurd h (by simp)
    · next program ran =>
      obtain ⟨rfl, -⟩ := Prod.mk.inj (Option.some.inj h)
      have idle' := Program.uartProcess_idle os (p := σ.program.enter os) idle rfl
      rw [show (σ.program.enter os).uartProcess os = .ok program from ran] at idle'
      exact idle'.1
  | call os fromPid call =>
    obtain ⟨pending, r, ran, hpending, hprogram, -, -, -, -⟩ := step_call h
    cases call with
    | «open» name opts =>
      obtain rfl := Option.some.inj hpending
      have ways := Program.handleOpen_cases os name opts (σ.program.enter os)
      rw [show (σ.program.enter os).handleOpen os name opts = σ'.program from
        Except.ok.inj hprogram] at ways
      exact (ways.answered idle).1
    | close =>
      obtain rfl := Option.some.inj hpending
      rw [← show (σ.program.enter os).handleClose = σ'.program from Except.ok.inj hprogram]
      exact (Program.handleClose_answered (p := σ.program.enter os) idle).1
    | configure opts =>
      obtain rfl := Option.some.inj hpending
      have idle' := Program.handleConfigure_answered (p := σ.program.enter os) idle os opts
      rw [show (σ.program.enter os).handleConfigure os opts = .ok σ'.program from hprogram] at idle'
      exact idle'.1

/-- **Every open that succeeds has the defaults of what it leaves out exactly when each finds
nothing kept** from the calls before it. -/
theorem everyStep_defaults_iff (es : List (Event β)) :
    EveryStep step OpensWithDefaults ({} : Pair β) es ↔ EveryStep step NothingKept {} es := by
  refine everyStep_congr (I := fun σ => σ.program.pending = false) (E := fun _ => True)
    (fun σ e σ' out idle _ _ took => step_idle idle took) (fun σ e σ' out idle _ took => ?_)
    (fun _ _ => trivial) rfl
  cases e with
  | process os => exact Iff.rfl
  | call os fromPid call =>
    cases call with
    | close => exact Iff.rfl
    | configure opts => exact Iff.rfl
    | «open» name opts =>
      refine Iff.trans ?_ (step_open_iff idle took)
      constructor
      · intro defaults ok
        exact defaults σ' out took ok
      · intro defaults σ'' out' took' ok
        obtain ⟨rfl, rfl⟩ := Prod.mk.inj (Option.some.inj (took'.symm.trans took))
        exact defaults ok

/-- A port is opened in passive mode with lines for frames, closed, and opened again without
options. -/
def openedAgain : List (Event UInt8) :=
  let os : Os UInt8 := { opened := fun _ => .ok (3, .raw) }
  [.call os 0 (.open ttyS0 [.active false, .framing (.module .line)]), .call os 0 .close,
    .call os 0 (.open ttyS0 [])]

/-- The port is opened, still in passive mode and for lines. -/
theorem not_everyStep_defaults_openedAgain :
    ¬ EveryStep step OpensWithDefaults ({} : Pair UInt8) openedAgain := by
  intro defaults
  obtain ⟨-, defaults⟩ := defaults _ _ rfl
  obtain ⟨-, defaults⟩ := defaults _ _ rfl
  obtain ⟨opened, -⟩ := defaults _ _ rfl
  have holds := opened _ _ rfl ⟨0, .head _⟩
  have active := (holds.active fun _ none => absurd none (by simp)).2
  exact absurd active (by decide)

end CircuitsUart.Mode
