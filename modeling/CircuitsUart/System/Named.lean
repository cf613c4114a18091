import CircuitsUart.System.Compose
import CircuitsUart.Port.Notified

/-!
# Whose name the GenServer keeps

`state.name` against the port the C program has open. The C program does not keep the name, so
it is recorded here beside the system: the name `uart_open` was last given, while the port it
opened is open.

The GenServer takes the name of every open, and `:closed` after every close, whatever the
response, and nothing else tells it. So the two agree while every open succeeds, or is refused
with the port of that name open, and no failure closes the port.

They agree only when nobody waits. While an open is on its way the server still has the old name
and the C program may have the new port; so the invariant compares the port with the name that the
server is **about to have** (`named`), and asks for nothing while the request has not been handled.

`Keeps` is a condition on the state before a step and the answers of the system, not on how the
step ends: whether `uart_open` is called can be read off the options and the name.
-/

set_option autoImplicit false

namespace CircuitsUart

open Lib Port Server

/-- A request after which another port may be open, or none. -/
def Command.reopens : Command → Bool
  | .open _ _ | .close => true
  | _ => false

/-! ## What an event does to the descriptor -/

namespace Program

variable {β : Type}

/-- The configuration `handle_open` gives to `uart_open`, if it gets so far. -/
def openWith (name : List UInt8) (opts : List UartOption) (p : Program β) : Option UartConfig :=
  if 64 ≤ name.length then none else configure p.currentConfig opts

/-- An open leaves a port of its name open: `uart_open` succeeds and is given the whole name, or
is not called and the port of that name stays open. -/
def LeavesOpen (os : Os β) (device : Option (List UInt8)) (p : Program β) : Command → Prop
  | .open name opts =>
    match p.openWith name opts with
    | some config =>
      (uartOpen os (cString name) config (p.enter os).shut).1 = true ∧ cString name = name
    | none => device = some name
  | _ => True

instance (os : Os β) (device : Option (List UInt8)) (p : Program β) :
    DecidablePred (p.LeavesOpen os device)
  | .open name opts =>
    match h : p.openWith name opts with
    | some config => decidable_of_iff
        ((uartOpen os (cString name) config (p.enter os).shut).1 = true ∧ cString name = name)
        (by rw [LeavesOpen, h])
    | none => decidable_of_iff (device = some name) (by rw [LeavesOpen, h])
  | .write _ _ | .read _ | .configure _ | .configuration | .close | .drain | .flush _ | .signals
  | .setDtr _ | .setRts _ | .setBreak _ => inferInstanceAs (Decidable True)

theorem openWith_of_parsed {name : List UInt8} {opts : List UartOption} {config : UartConfig}
    {p : Program β} (short : name.length < 64)
    (parsed : configure p.currentConfig opts = some config) :
    p.openWith name opts = some config := by
  rw [openWith, if_neg (Nat.not_le.mpr short), parsed]

/-- An open that does not get as far as `uart_open` leaves the descriptor, any other sets it. -/
theorem handleOpen_fd (os : Os β) (name : List UInt8) (opts : List UartOption) (p : Program β) :
    (p.handleOpen os name opts).uart.fd.isSome =
      match p.openWith name opts with
      | some config => (uartOpen os (cString name) config p.shut).1
      | none => p.uart.fd.isSome := by
  have ways := handleOpen_cases os name opts p
  generalize p.handleOpen os name opts = q at ways
  cases ways with
  | refused reason unfit =>
    have none_given : p.openWith name opts = none := by
      unfold openWith
      split
      · rfl
      · next long => exact unfit (Nat.not_le.mp long)
    rw [none_given]
    rfl
  | @failed config q short parsed tried =>
    rw [openWith_of_parsed short parsed]
    dsimp only
    rw [tried]
    have closed := (uartOpen_failed tried p.shut_fd).1
    show q.uart.fd.isSome = false
    rw [closed]
    rfl
  | @opened config q short parsed tried =>
    rw [openWith_of_parsed short parsed]
    dsimp only
    rw [tried]
    show (q.adopt os config).uart.fd.isSome = true
    rw [uart_adopt]
    exact (uartOpen_opened tried).1

theorem handleClose_fd (p : Program β) : p.handleClose.uart.fd = none := by
  have closed : p.handleClose.uart.fd = p.shut.uart.fd := rfl
  exact closed.trans p.shut_fd

theorem handleConfigure_fd {os : Os β} {opts : List UartOption} {p q : Program β}
    (h : p.handleConfigure os opts = .ok q) : q.uart.fd = p.uart.fd := by
  have ways := handleConfigure_cases os opts p
  rw [h] at ways
  have ways : Configuring os opts p q := ways
  cases ways with
  | refused unparsed => rfl
  | @failed config q parsed tried =>
    show q.uart.fd = p.uart.fd
    rw [(uartConfigure_eq_ok tried).1]
  | @configured config q parsed tried =>
    show (q.adopt os config).uart.fd = p.uart.fd
    rw [uart_adopt, (uartConfigure_eq_ok tried).1]

theorem Replies.fd {p q : Program β} (h : Replies p q) : q.uart.fd = p.uart.fd := by
  obtain ⟨p', r, called, -, rfl⟩ := h
  rcases called with rfl | ⟨errno, rfl⟩ <;> rfl

/-- What needs the port finds it closed. -/
theorem handle_closed {p q : Program β} {e : Event β} (closed : p.uart.fd = none)
    (transfers : e.transfers = true) (h : p.handle e = .ok q) : q.uart.fd = none := by
  have shut : ∀ os : Os β, ¬ (p.enter os).uartIsOpen = true := fun os isOpen =>
    absurd closed (Option.isSome_iff_ne_none.mp isOpen)
  cases e with
  | process os =>
    have ran : (p.enter os).uartProcess os = .ok q := h
    rw [uartProcess, show (p.enter os).uart.fd = none from closed] at ran
    obtain rfl := Except.ok.inj ran
    exact closed
  | request os command =>
    cases command with
    | write data timeout =>
      have ran : (p.enter os).handleWrite os data timeout = .ok q := h
      rw [handleWrite, whenOpen, if_neg (shut os)] at ran
      obtain rfl := Except.ok.inj ran
      exact closed
    | read timeout =>
      have ran : (p.enter os).handleRead os timeout = .ok q := h
      rw [handleRead, whenOpen, if_neg (shut os)] at ran
      obtain rfl := Except.ok.inj ran
      exact closed
    | _ => exact absurd transfers (by simp [Event.transfers])

/-- **A request that neither opens nor closes** leaves the descriptor, but for a failure that
closes the port. -/
theorem request_fd {p q : Program β} {os : Os β} {command : Command}
    (h : p.handle (.request os command) = .ok q) (plain : command.reopens = false)
    (idle : (Event.request os command).transfers = false) : q.uart.fd = p.uart.fd := by
  have handled : (p.enter os).handleElixirRequest os command = .ok q := h
  have replies : command.plain = true → q.uart.fd = p.uart.fd := fun plain => by
    have replies := handleElixirRequest_plain os plain (p.enter os)
    rw [handled] at replies
    exact replies.fd
  cases command with
  | «open» name opts => exact absurd plain (by simp [Command.reopens])
  | close => exact absurd plain (by simp [Command.reopens])
  | write data timeout => exact absurd idle (by simp [Event.transfers])
  | read timeout => exact absurd idle (by simp [Event.transfers])
  | configure opts => exact handleConfigure_fd (p := p.enter os) handled
  | _ => exact replies rfl

/-- **A failure closes the port**, and nothing else does that transfers data. -/
theorem transfer_fd {p q : Program β} {e : Event β} (h : p.handle e = .ok q)
    (transfers : e.transfers = true) :
    (failure p e = none → q.uart.fd = p.uart.fd) ∧
      (q.uart.fd.isSome = true → p.uart.fd.isSome = true) := by
  cases hfd : p.uart.fd with
  | none =>
    have closed := handle_closed hfd transfers h
    exact ⟨fun _ => closed, fun isOpen => absurd closed (Option.isSome_iff_ne_none.mp isOpen)⟩
  | some fd =>
    refine ⟨fun fine => ?_, fun _ => rfl⟩
    have isOpen : p.uart.fd.isSome = true := by rw [hfd]; rfl
    have sound : ¬ Breaks p e := by
      intro breaks
      cases e with
      | request os command => exact breaks
      | process os =>
        obtain ⟨errno, met, -, -⟩ := uartProcess_breaks (p := p.enter os) breaks
        exact absurd (met.symm.trans fine) (by simp)
    obtain ⟨os, ends⟩ := handle_ends isOpen transfers sound h
    rw [fine] at ends
    have calm : Calm (p.enter os) q := ends
    exact calm.fd.trans hfd

end Program

/-! ## The name the GenServer is about to have -/

namespace Server

variable {β : Type}

/-- The name once the callback that waits has run. -/
def Pending.named (p : Pending β) (name : PortName) : PortName :=
  match p.cont with
  | .opening name _ => .name name
  | .closing => .closed
  | _ => name

def named (σ : Server β) : PortName :=
  match σ.pending with
  | none => σ.state.name
  | some p => p.named σ.state.name

theorem Pending.Fits.named {p : Pending β} (fits : p.Fits) (plain : p.command.reopens = false)
    (name : PortName) : p.named name = name := by
  obtain ⟨fromPid, command, cont⟩ := p
  unfold Pending.named
  cases cont with
  | opening name opts =>
    cases command with
    | «open» name opts => exact absurd plain (by simp [Command.reopens])
    | close => exact absurd plain (by simp [Command.reopens])
    | read timeout =>
      obtain ⟨callTime, other⟩ := fits
      exact absurd other (by simp)
    | _ => exact absurd rfl (fits.1 name opts)
  | closing =>
    cases command with
    | «open» name opts => exact absurd plain (by simp [Command.reopens])
    | close => exact absurd plain (by simp [Command.reopens])
    | read timeout =>
      obtain ⟨callTime, other⟩ := fits
      exact absurd other (by simp)
    | _ => exact absurd rfl fits.2.1
  | _ => rfl

/-- What a turn makes of the name. -/
def Taken.named (name : PortName) : Taken β → PortName
  | .message _ => name
  | .response p _ => p.named name

theorem handleRead_name (s : State β) (timers : Timers) (fromPid : Pid) (timeout : Nat)
    (clock : Int) (out : List (Label β)) :
    (handleRead s timers fromPid timeout clock out).state.name = s.name := by
  unfold handleRead
  split <;> rfl

theorem afterData_name (s : State β) (timers : Timers) (framer : Framer β) (rc : Rc) :
    (afterData s timers framer rc).state.name = s.name := by
  rw [afterData, handleFramingTimer_state]

variable [Octet β]

/-- **Only an open and a close change the name**, and they do it with the response. -/
theorem Turn.name {s : State β} {timers : Timers} {taken : Taken β} {ran : Ran β}
    (h : Turn s timers taken ran) : ran.state.name = taken.named s.name := by
  cases h with
  | configure => exact handleConfigure_name _ _ _ _
  | notified => exact afterData_name s timers _ _
  | timedOut =>
    show (notifyTimedoutMessages _ _).1.name = s.name
    rw [notifyTimedoutMessages_state]
  | @opened p name opts r cont =>
    rw [Taken.named, Pending.named, cont]
    exact resumeOpening_name _ _ _ _ _ _
  | @closed p r cont =>
    rw [Taken.named, Pending.named, cont]
    show (handleFramingTimer _ _ _).state.name = .closed
    rw [handleFramingTimer_state]
  | @answered p r reply cont not_message =>
    rw [Taken.named, Pending.named]
    rcases cont with cont | cont | ⟨timeout, callTime, cont, -⟩ <;> rw [cont] <;> rfl
  | wrote cont =>
    rw [Taken.named, Pending.named, cont]
    rfl
  | readData cont ne framed =>
    rw [Taken.named, Pending.named, cont]
    exact afterData_name s timers _ _
  | readMore cont ne framed =>
    rw [Taken.named, Pending.named, cont]
    exact (handleRead_name _ _ _ _ _ _).trans (afterData_name s timers _ _)
  | _ => rfl

omit [Octet β] in
/-- A turn takes up where the server was. -/
theorem named_of_next {σ : Server β} {taken : Taken β} {rest : List (Msg β)}
    (h : next σ = some (taken, rest)) : taken.named σ.state.name = σ.named := by
  rcases next_eq_some h with ⟨m, rfl, idle, -⟩ | ⟨p, r, before, after, rfl, waits, -⟩
  · rw [Server.named, idle]
    rfl
  · rw [Server.named, waits]
    rfl

end Server

/-! ## The name of the port that is open -/

namespace System

/-- The system, and the name `uart_open` was given for the port that is open. -/
structure Traced (β : Type) where
  system : System β := {}
  device : Option (List UInt8) := none

namespace Traced

variable {β : Type}

/-- The name an event gives to `uart_open`, if it calls it. -/
def given (σ : System β) : Event β → Option (List UInt8)
  | .request _ =>
    match σ.stdin with
    | .open name opts :: _ => (σ.program.openWith name opts).map fun _ => Program.cString name
    | _ => none
  | _ => none

/-- The name after an event that leads to `σ'`. -/
def trace (σ : Traced β) (e : Event β) (σ' : System β) : Option (List UInt8) :=
  if σ'.program.uartIsOpen then (given σ.system e).or σ.device else none

/-- `state.name` is the name of the port the C program has open, and `:closed` exactly if
none is. -/
def Agree (σ : Traced β) : Prop :=
  (∀ name, σ.system.server.state.name = .name name ↔ σ.device = some name) ∧
    (σ.system.server.state.name = .closed ↔ σ.system.program.uartIsOpen = false)

/-- An open leaves a port of its name open, and no failure closes the port, but for one that is
about to be opened or closed anyway. -/
def Keeps (σ : Traced β) : Event β → Prop
  | .request os => ∀ command ∈ σ.system.stdin.head?,
      σ.system.program.failure (.request os command) = none ∧
        σ.system.program.LeavesOpen os σ.device command
  | .process os =>
    σ.system.program.failure (.process os) = none ∨
      ∃ command ∈ σ.system.stdin, command.reopens = true
  | _ => True

instance (σ : Traced β) : DecidablePred (Keeps σ)
  | .request os => inferInstanceAs (Decidable (∀ command ∈ σ.system.stdin.head?,
      σ.system.program.failure (.request os command) = none ∧
        σ.system.program.LeavesOpen os σ.device command))
  | .process os => inferInstanceAs (Decidable (σ.system.program.failure (.process os) = none ∨
      ∃ command ∈ σ.system.stdin, command.reopens = true))
  | .call _ _ | .expire _ | .turn _ _ | .deliver => inferInstanceAs (Decidable True)

variable [Octet β]

def step (σ : Traced β) (e : Event β) : Option (Traced β × List (Label β)) :=
  match System.step σ.system e with
  | none => none
  | some (system, out) => some (⟨system, σ.trace e system⟩, out)

theorem step_eq_some {σ σ' : Traced β} {e : Event β} {out : List (Label β)}
    (h : step σ e = some (σ', out)) :
    System.step σ.system e = some (σ'.system, out) ∧ σ'.device = σ.trace e σ'.system := by
  unfold step at h
  split at h
  · exact absurd h (by simp)
  · next system out' took =>
    obtain ⟨rfl, rfl⟩ := Prod.mk.inj (Option.some.inj h)
    exact ⟨took, rfl⟩

/-! ## The two names -/

/-- What `state.name` is for a port of that name, or for none. -/
def portName : Option (List UInt8) → PortName
  | none => .closed
  | some name => .name name

/-- While no open or close is on its way to the C program, the name the GenServer is about to
have is that of the port that is open. -/
structure Follows (σ : Traced β) : Prop where
  aligned : System.Aligned σ.system
  isOpen : σ.device.isSome = σ.system.program.uart.fd.isSome
  named : (∀ command ∈ σ.system.stdin, command.reopens = false) →
    σ.system.server.named = portName σ.device

omit [Octet β] in
/-- The descriptor is as it was, and so is the name. -/
theorem trace_of_fd {σ : Traced β} {e : Event β} {σ' : System β}
    (isOpen : σ.device.isSome = σ.system.program.uart.fd.isSome)
    (fd : σ'.program.uart.fd = σ.system.program.uart.fd) (other : given σ.system e = none) :
    σ.trace e σ' = σ.device := by
  unfold trace Program.uartIsOpen
  rw [fd, other, Option.none_or, ← isOpen]
  cases σ.device <;> rfl

omit [Octet β] in
/-- A port that is open has a name, if it was open or has been opened by name. -/
theorem trace_isSome {σ : Traced β} {e : Event β} {σ' : System β}
    (was : σ'.program.uart.fd.isSome = true →
      (given σ.system e).isSome = true ∨ σ.device.isSome = true) :
    (σ.trace e σ').isSome = σ'.program.uart.fd.isSome := by
  unfold trace Program.uartIsOpen
  cases hfd : σ'.program.uart.fd.isSome with
  | false => rfl
  | true =>
    rw [if_pos rfl, Option.isSome_or]
    simpa using was hfd

omit [Octet β] in
/-- What leaves the descriptor leaves the name of the port. -/
theorem Follows.still {σ : Traced β} (F : Follows σ) {e : Event β} {σ' : System β}
    (aligned : Aligned σ') (fd : σ'.program.uart.fd = σ.system.program.uart.fd)
    (other : given σ.system e = none)
    (named : (∀ command ∈ σ'.stdin, command.reopens = false) →
      σ'.server.named = portName σ.device) : Follows ⟨σ', σ.trace e σ'⟩ := by
  have same := trace_of_fd F.isOpen fd other
  refine ⟨aligned, ?_, fun plain => ?_⟩
  · show (σ.trace e σ').isSome = σ'.program.uart.fd.isSome
    rw [same, fd]
    exact F.isOpen
  · show σ'.server.named = portName (σ.trace e σ')
    rw [same]
    exact named plain

omit [Octet β] in
/-- Nobody waits for an open or a close that has not been sent. -/
theorem settled_of_nil {stdin : List Command} (empty : stdin = []) :
    ∀ command ∈ stdin, command.reopens = false := by
  intro command mem
  rw [empty] at mem
  exact absurd mem (by simp)

/-- **A turn** ends with the name that was expected, until it asks for another port. -/
theorem Follows.turn {σ : Traced β} (F : Follows σ) {now clock : Int} {taken : Taken β}
    {rest : List (Msg β)} {ran : Ran β}
    (next : Server.next σ.system.server = some (taken, rest))
    (goes : Turn σ.system.server.state σ.system.server.timers taken ran) {σ' : System β}
    (aligned : Aligned σ') (after : σ' = { σ.system with
      server := ⟨ran.state, ran.timers, ran.pending, rest⟩
      stdin := σ.system.stdin ++ asked ran.out }) :
    Follows ⟨σ', σ.trace (.turn now clock) σ'⟩ := by
  obtain ⟨-, -, -, -, -, -, stdin, -, -, -⟩ := F.aligned.next next
  obtain ⟨asks, fits⟩ := goes.asks
  have name : ran.state.name = portName σ.device :=
    goes.name.trans ((named_of_next next).trans (F.named (settled_of_nil stdin)))
  subst after
  refine F.still aligned rfl rfl fun plain => ?_
  show Server.named ⟨ran.state, ran.timers, ran.pending, rest⟩ = _
  cases waits : ran.pending with
  | none => exact name
  | some p =>
    have sent : p.command ∈ σ.system.stdin ++ asked ran.out := by
      rw [asks, waits]
      exact List.mem_append_right _ (List.mem_singleton.mpr rfl)
    exact ((fits p waits).named (plain _ sent) _).trans name

omit [Octet β] in
/-- **An open** that leaves its port open. -/
theorem Follows.opening {σ : Traced β} (F : Follows σ) {os : Os β} {name : List UInt8}
    {opts : List UartOption} {rest : List Command} {q : Program β}
    (stdin : σ.system.stdin = .open name opts :: rest)
    (leaves : σ.system.program.LeavesOpen os σ.device (.open name opts))
    (handled : σ.system.program.handle (.request os (.open name opts)) = .ok q) {σ' : System β}
    (aligned : Aligned σ') (program : σ'.program.uart = q.uart)
    (server : σ'.server = σ.system.server) : Follows ⟨σ', σ.trace (.request os) σ'⟩ := by
  obtain ⟨-, -, -, p, waits, command⟩ := F.aligned.asked stdin
  have fits := F.aligned.fits p waits
  rw [Pending.Fits, command] at fits
  have expected : σ'.server.named = .name name := by
    rw [server, Server.named, waits]
    show p.named _ = _
    rw [Pending.named, fits]
  have fd := Program.handleOpen_fd os name opts (σ.system.program.enter os)
  rw [show (σ.system.program.enter os).handleOpen os name opts = q from Except.ok.inj handled,
    ← program] at fd
  have found : (given σ.system (.request os)).or σ.device = some name ∧
      σ'.program.uart.fd.isSome = true := by
    rw [Program.LeavesOpen] at leaves
    rw [show (σ.system.program.enter os).openWith name opts =
      σ.system.program.openWith name opts from rfl] at fd
    rw [given, stdin]
    dsimp only
    cases gives : σ.system.program.openWith name opts with
    | none =>
      rw [gives] at leaves fd
      refine ⟨leaves, fd.trans ?_⟩
      have isOpen := F.isOpen
      rw [leaves] at isOpen
      exact isOpen.symm
    | some config =>
      rw [gives] at leaves fd
      exact ⟨congrArg some leaves.2, fd.trans leaves.1⟩
  have traced : σ.trace (.request os) σ' = some name := by
    rw [trace, Program.uartIsOpen, if_pos found.2]
    exact found.1
  refine ⟨aligned, ?_, fun _ => ?_⟩
  · show (σ.trace (.request os) σ').isSome = σ'.program.uart.fd.isSome
    rw [traced, found.2]
    rfl
  · show σ'.server.named = portName (σ.trace (.request os) σ')
    rw [traced]
    exact expected

omit [Octet β] in
/-- **A close** leaves no port open. -/
theorem Follows.closing {σ : Traced β} (F : Follows σ) {os : Os β} {rest : List Command}
    {q : Program β} (stdin : σ.system.stdin = .close :: rest)
    (handled : σ.system.program.handle (.request os .close) = .ok q) {σ' : System β}
    (aligned : Aligned σ') (program : σ'.program.uart = q.uart)
    (server : σ'.server = σ.system.server) : Follows ⟨σ', σ.trace (.request os) σ'⟩ := by
  obtain ⟨-, -, -, p, waits, command⟩ := F.aligned.asked stdin
  have fits := F.aligned.fits p waits
  rw [Pending.Fits, command] at fits
  have expected : σ'.server.named = .closed := by
    rw [server, Server.named, waits]
    show p.named _ = _
    rw [Pending.named, fits]
  have fd : σ'.program.uart.fd = none := by
    rw [program, ← Except.ok.inj handled]
    exact Program.handleClose_fd _
  have traced : σ.trace (.request os) σ' = none := by
    rw [trace, Program.uartIsOpen, fd]
    rfl
  refine ⟨aligned, ?_, fun _ => ?_⟩
  · show (σ.trace (.request os) σ').isSome = σ'.program.uart.fd.isSome
    rw [traced, fd]
    rfl
  · show σ'.server.named = portName (σ.trace (.request os) σ')
    rw [traced]
    exact expected

omit [Octet β] in
/-- **Another request** leaves the port as it is, unless a failure closes it. -/
theorem Follows.other {σ : Traced β} (F : Follows σ) {os : Os β} {command : Command}
    {rest : List Command} {q : Program β} (stdin : σ.system.stdin = command :: rest)
    (plain : command.reopens = false)
    (fine : σ.system.program.failure (.request os command) = none)
    (handled : σ.system.program.handle (.request os command) = .ok q) {σ' : System β}
    (aligned : Aligned σ') (program : σ'.program.uart = q.uart)
    (server : σ'.server = σ.system.server) : Follows ⟨σ', σ.trace (.request os) σ'⟩ := by
  have fd : q.uart.fd = σ.system.program.uart.fd := by
    cases transfers : (Program.Event.request os command).transfers with
    | true => exact (Program.transfer_fd handled transfers).1 fine
    | false => exact Program.request_fd handled plain transfers
  have unnamed : given σ.system (.request os) = none := by
    rw [given, stdin]
    cases command with
    | «open» name opts => exact absurd plain (by simp [Command.reopens])
    | _ => rfl
  -- it was the one request about
  obtain ⟨rfl, -⟩ := F.aligned.asked stdin
  have only : ∀ command ∈ σ.system.stdin, command.reopens = false := by
    intro command' sent
    rw [stdin] at sent
    obtain rfl := List.mem_singleton.mp sent
    exact plain
  refine F.still aligned (program ▸ fd) unnamed fun _ => ?_
  rw [server]
  exact F.named only

/-- **A step keeps the names together**, if it leaves the port of the name open. -/
theorem step_follows {σ σ' : Traced β} {e : Event β} {out : List (Label β)} (F : Follows σ)
    (keeps : Keeps σ e) (h : step σ e = some (σ', out)) : Follows σ' := by
  obtain ⟨took, traced⟩ := step_eq_some h
  have aligned := step_aligned F.aligned took
  obtain ⟨system, device⟩ := σ'
  obtain rfl : device = σ.trace e system := traced
  cases step_cases took with
  | call fromPid call => exact F.still aligned rfl rfl F.named
  | expire live => exact F.still aligned rfl rfl F.named
  | deliver stdout => exact F.still aligned rfl rfl F.named
  | turn next goes => exact F.turn next goes aligned rfl
  | @request os command rest q stdin handled =>
    obtain ⟨fine, leaves⟩ := keeps command (by rw [stdin]; rfl)
    cases command with
    | «open» name opts => exact F.opening stdin leaves handled aligned rfl rfl
    | close => exact F.closing stdin handled aligned rfl rfl
    | _ => exact F.other stdin rfl fine handled aligned rfl rfl
  | @process os q handled =>
    obtain ⟨still, was⟩ := Program.transfer_fd handled rfl
    rcases keeps with fine | ⟨command, sent, reopens⟩
    · exact F.still aligned (still fine) rfl F.named
    · refine ⟨aligned, ?_, fun plain => ?_⟩
      · apply trace_isSome
        intro isOpen
        right
        rw [F.isOpen]
        exact was isOpen
      · exact absurd ((plain command sent).symm.trans reopens) (by simp)

omit [Octet β] in
theorem follows_init : Follows ({} : Traced β) := by
  refine ⟨?_, rfl, fun _ => rfl⟩
  exact Quiet.aligned ⟨rfl, rfl, rfl⟩ rfl

/-- **`state.name` is the name of the port that is open**, in every state in which no callback
waits, of every run in which each open leaves a port of its name open and no failure closes
one. -/
theorem name_agrees {h : List (Label β)} {σ : Traced β}
    (r : Reach step (fun _ => Keeps) {} h σ) (idle : σ.system.server.pending = none) :
    Agree σ := by
  have keep : ∀ (h : List (Label β)) (σ : Traced β) e σ' out, Follows σ → Keeps σ e →
      step σ e = some (σ', out) → Follows σ' :=
    fun _ _ _ _ _ F keeps took => step_follows F keeps took
  have F : Follows σ := r.invariant (I := fun _ => Follows) follows_init keep
  have quiet := F.aligned.quiet idle
  have name : σ.system.server.state.name = portName σ.device := by
    have named := F.named (settled_of_nil quiet.stdin)
    rw [Server.named, idle] at named
    exact named
  have isOpen : σ.system.program.uartIsOpen = σ.device.isSome := F.isOpen.symm
  rw [Agree, name, isOpen]
  cases σ.device with
  | none => exact ⟨fun name => by simp [portName], by simp [portName]⟩
  | some name' => exact ⟨fun name => by simp [portName], by simp [portName]⟩

/-- A call from the client to its reply, with what the operating system answers. -/
def roundTrip (call : Server.Call) (os : Os UInt8) : List (Event UInt8) :=
  [.call 0 call, .turn 0 0, .request os, .deliver, .turn 0 0]

/-- A port is opened, opened again, and opened once more with a speed that is
refused. -/
def reopened : List (Event UInt8) :=
  roundTrip (.open ttyS0 []) { opened := fun _ => .ok (3, .raw) } ++
    roundTrip (.open (ascii "ttyS1") []) { opened := fun _ => .ok (3, .raw) } ++
    roundTrip (.open (ascii "ttyS1") [.speed 9223372036854775808]) {}

theorem name_agrees_reopened :
    ∃ r, exec step ({} : Traced UInt8) reopened = some r ∧ r.1.device = some (ascii "ttyS1") ∧
      Agree r.1 := by
  have keeps : permitted step (fun σ e => decide (Keeps σ e)) ({} : Traced UInt8) reopened = true := by
    decide
  cases ran : exec step ({} : Traced UInt8) reopened with
  | none => exact absurd ran (by decide)
  | some r =>
    have reach := (Reach.of_permitted .start keeps ran).weaken fun _ _ _ => of_decide_eq_true
    refine ⟨r, rfl, ?_, name_agrees reach ?_⟩
    · obtain rfl := Option.some.inj (ran.symm.trans rfl)
      rfl
    · obtain rfl := Option.some.inj (ran.symm.trans rfl)
      rfl

/-- The port cannot be opened, and still has its name. -/
theorem not_name_agrees_missing :
    ¬ ∀ h (σ : Traced UInt8), Reach step anyStep {} h σ → σ.system.server.pending = none →
      σ.system.incoming = [] → Agree σ := by
  intro all
  have ran : exec step ({} : Traced UInt8) (roundTrip (.open ttyS0 []) {}) = some (_, _) := rfl
  have agree := (all _ _ (.of_exec ran) rfl rfl).2
  exact absurd (agree.mpr rfl) (by decide)

end Traced

end System

end CircuitsUart
