import CircuitsUart.Port.Expiry
import CircuitsUart.System.Progress

/-!
# In time for the port

`call_port/4` does not wait for ever. If no response has come when its timeout has run out, it exits
with `:port_timed_out`, and the GenServer is gone with all that it holds. `System` leaves this out,
for there a callback waits as long as it takes; here the two processes run by a clock, and every way
for one of them to be gone is a step.

## Why latencies are numbers

A read or a write tells the C program how long it may take, and `call_port/4` is given 400 ms more
(`@port_timeout_slack`); anything else has 4000 ms in all. Whether that is enough is not up to the
code. It is a matter of how long it takes until a request has been read and handled, how late the
main loop comes round to a deadline, and how long a response is in the pipe. `Latency` has these
three, with a sum below what `call_port/4` leaves, and `Prompt` says of a run that it keeps to them:
an event that comes later has missed what it should have waited for. From this, and from what the
C program does with a deadline (`Program.uartProcess_ages`), follows that no timeout of
`call_port/4` ever runs out.

The numbers are free, but the condition is not empty: a drain whose `tcdrain` takes more than four
seconds breaks it, and then the GenServer does exit.

## What a step is

An event of `System` is over at some time, and its handler may have read the clock at any time up to
then. So nothing is said of how long one takes but by what it waits for, and events of the two
processes may overlap. A turn reads Erlang's clock and not this one; of that it is only asked that
it does not run backwards (`System.Fit`).
-/

set_option autoImplicit false

namespace CircuitsUart

open Lib Port Server

/-! ## The timeouts of `call_port/4` -/

namespace Server

/-- `@port_timeout_slack`. -/
def PORT_TIMEOUT_SLACK : Nat := 400

/-- `port_timeout/1`. -/
def portTimeout (timeout : Nat) : Nat := timeout + PORT_TIMEOUT_SLACK

/-- The default timeout of `call_port/4`. -/
def CALL_PORT_TIMEOUT : Nat := 4000

/-- The longest timeout that a `receive` takes. -/
def MAX_RECEIVE : Nat := 2 ^ 32 - 1

end Server

namespace Command

/-- The timeout that `call_port/4` is given with a command. -/
def portTimeout : Command → Nat
  | .read timeout | .write _ timeout => Server.portTimeout timeout
  | _ => CALL_PORT_TIMEOUT

/-- What it leaves for everything but the operation. -/
def slack : Command → Nat
  | .read _ | .write _ _ => PORT_TIMEOUT_SLACK
  | _ => CALL_PORT_TIMEOUT

theorem portTimeout_eq (command : Command) :
    command.portTimeout = command.timeout + command.slack := by
  cases command <;> simp [portTimeout, timeout, slack, Server.portTimeout]

/-- A `receive` takes it. -/
theorem portTimeout_le {command : Command} (short : command.timeout < 2 ^ 31) :
    command.portTimeout ≤ MAX_RECEIVE := by
  have slack : command.slack ≤ 4000 := by
    cases command <;> simp [Command.slack, CALL_PORT_TIMEOUT, PORT_TIMEOUT_SLACK]
  rw [portTimeout_eq]
  unfold MAX_RECEIVE
  omega

end Command

/-! ## Deadlines of the C program -/

namespace Program

variable {β : Type} {p q : Program β} {os : Os β} {op : Transfer}

/-- **What a request leaves pending** is due when its timeout has run out, from the clock that was
read for it. -/
theorem due_of_request (idle : p.pending = false) {command : Command}
    (short : command.timeout < 2 ^ 31) (early : (os.clock op).toNat < 2 ^ 63)
    (handled : p.handle (.request os command) = .ok q) (waits : q.uart.waits op = true) :
    (q.uart.completionDeadline op).toNat = (os.clock op).toNat + command.timeout := by
  have placed : Placed p := (Sound.of_idle idle).placed
  by_cases asks : ∃ a, requested (.request os command) = some (op, a)
  · obtain ⟨a, asks⟩ := asks
    have same : a = ⟨os.clock op, command.timeout⟩ := by
      unfold requested at asks
      split at asks
      · next sent => cases sent; obtain ⟨rfl, rfl⟩ := Prod.mk.inj (Option.some.inj asks); rfl
      · next sent => cases sent; obtain ⟨rfl, rfl⟩ := Prod.mk.inj (Option.some.inj asks); rfl
      · exact absurd asks (by simp)
    subst same
    have long : (command.timeout : Int) ≤ LONG_MAX := by
      unfold LONG_MAX
      omega
    have begun := handle_begun placed asks long
    rw [handled] at begun
    rw [begun.deadline waits, Asked.toNat_deadline early, limit_of_lt short]
  · have ages : Yields (Ages op { p with out := [] }) (p.handle (.request os command)) :=
      handle_ages placed fun a asked => asks ⟨a, asked⟩
    rw [handled] at ages
    exact absurd (pending_of_waits (ages.kept waits).before) (by simpa [pending] using idle)

/-- **What the loop leaves pending** was pending, with the same deadline. -/
theorem due_of_process (sound : Sound p) (handled : p.handle (.process os) = .ok q)
    (waits : q.uart.waits op = true) :
    p.uart.waits op = true ∧ q.uart.completionDeadline op = p.uart.completionDeadline op := by
  have ages : Yields (Ages op { p with out := [] }) (p.handle (.process os)) :=
    handle_ages sound.placed (by simp [requested])
  rw [handled] at ages
  have lasts := ages.kept waits
  exact ⟨lasts.before, lasts.deadline⟩

/-- **What the loop answers** was pending. -/
theorem pending_of_answer (sound : Sound p) (handled : p.handle (.process os) = .ok q)
    {r : Response β} (sent : .response r ∈ q.out) : p.pending = true := by
  have kept := uartProcess_kept (p := p.enter os) ⟨sound.one, sound.isOpen, sound.passive⟩ os
  rw [show (p.enter os).uartProcess os = .ok q from handled] at kept
  have owed : q.out.countP isResponse + q.pending.toNat = (p.enter os).owed := kept.2
  have entered : (p.enter os).owed = p.pending.toNat := Nat.zero_add _
  have answer : 0 < q.out.countP isResponse := List.countP_pos_iff.mpr ⟨_, sent, rfl⟩
  by_contra idle
  rw [entered, Bool.eq_false_iff.mpr idle, Bool.toNat_false] at owed
  omega

end Program

/-! ## Ways to be gone -/

/-- Why there is no GenServer any more. -/
inductive Exit
  /-- `exit(:port_timed_out)` -/
  | portTimedOut
  /-- `timeout_value`, which a `receive` raises on a timeout that it does not take -/
  | timeoutValue
  /-- a callback has no clause for what it was given, or never returns -/
  | callback
  /-- the C program has stopped in `errx`, and the GenServer has no clause for that -/
  | program
  deriving DecidableEq, Repr

namespace System

variable {β : Type}

/-- The C program has stopped for good. -/
def exitOf {α : Type} : Except Stop α → Option Exit
  | .error (.errx _) => some .program
  | _ => none

/-- What an event ends in that does not come back. A system call that never returns is no event. -/
def ends [Octet β] (σ : System β) : Event β → Option Exit
  | .turn _ _ => if (Server.next σ.server).isSome then some .callback else none
  | .request os =>
    match σ.stdin with
    | [] => none
    | command :: _ => exitOf (σ.program.handle (.request os command))
  | .process os => exitOf (σ.program.handle (.process os))
  | _ => none

def Event.isTurn : Event β → Bool
  | .turn _ _ => true
  | _ => false

/-- What the C program reads the clock for is over by then. -/
def Event.ReadBy (time : Nat) : Event β → Prop
  | .request os | .process os => ∀ op, (os.clock op).toNat ≤ time
  | _ => True

end System

/-- The two processes and the time. -/
structure Clocked (β : Type) where
  system : System β := {}
  now : Nat := 0
  /-- when the callback that waits began to -/
  asked : Nat := 0
  /-- until when there was no response in the pipe -/
  written : Nat := 0
  exited : Option Exit := none

namespace Clocked

variable {β : Type}

/-- The time when it is over, and what happens. -/
inductive Event (β : Type)
  | step (time : Nat) (event : System.Event β)
  | timeOut (time : Nat)

/-- A step of the two that is over. A turn that ends waiting is in the `receive` of `call_port/4`,
which has nothing to take yet. -/
def after (τ : Clocked β) (time : Nat) (e : System.Event β) (σ : System β) : Clocked β where
  system := σ
  now := time
  asked := if e.isTurn then time else τ.asked
  written := if τ.system.stdout.any Program.isResponse then τ.written else time
  exited := if σ.server.pending.any fun p => MAX_RECEIVE < p.command.portTimeout then
    some .timeoutValue else none

variable [Octet β]

/-- One step. When the GenServer is gone its port is closed, and the C program exits. -/
def step (τ : Clocked β) (e : Event β) : Option (Clocked β × List (System.Label β)) :=
  if τ.exited.isSome then none
  else
    match e with
    | .step time e =>
      match System.step τ.system e with
      | some (σ, out) => some (τ.after time e σ, out)
      | none =>
        match τ.system.ends e with
        | some exit => some ({ τ with now := time, exited := some exit }, [])
        | none => none
    | .timeOut time =>
      match τ.system.server.pending with
      | none => none
      | some p =>
        if (responses τ.system.server.mailbox).isEmpty ∧
            τ.asked + p.command.portTimeout ≤ time then
          some ({ τ with now := time, exited := some .portTimedOut }, [])
        else none

/-! ## How long things take -/

/-- In milliseconds: until a request has been read and handled, until the main loop looks at a
deadline that has come, and until a response is in the mailbox. -/
structure Latency where
  request : Command → Nat
  poll : Nat
  delivery : Nat
  short : ∀ command, request command + poll + delivery < command.slack

/-- It is not too late at this time for what is to be done. -/
structure InTime (L : Latency) (τ : Clocked β) (time : Nat) : Prop where
  later : τ.now ≤ time
  early : time < 2 ^ 63
  request : ∀ command ∈ τ.system.stdin, time ≤ τ.asked + L.request command
  poll : ∀ op, τ.system.program.uart.waits op = true →
    time ≤ (τ.system.program.uart.completionDeadline op).toNat + L.poll
  delivery : τ.system.stdout.any Program.isResponse = true → time ≤ τ.written + L.delivery

/-- Calls are proper, clocks do not run backwards, and nothing takes longer than `L` has it. -/
def Prompt (L : Latency) (h : List (System.Label β)) (τ : Clocked β) : Event β → Prop
  | .step time e => τ.InTime L time ∧ e.ReadBy time ∧ System.Fit h τ.system e
  | .timeOut time => τ.InTime L time

/-- Nothing that is waited for can be late. -/
structure OnTime (L : Latency) (h : List (System.Label β)) (τ : Clocked β) : Prop where
  sane : System.Sane h τ.system
  alive : τ.exited = none
  due : ∀ p op, τ.system.server.pending = some p → τ.system.program.uart.waits op = true →
    (τ.system.program.uart.completionDeadline op).toNat ≤
      τ.asked + L.request p.command + p.command.timeout
  written : ∀ p r, τ.system.server.pending = some p → .response r ∈ τ.system.stdout →
    τ.written ≤ τ.asked + L.request p.command + p.command.timeout + L.poll

variable {L : Latency} {h out : List (System.Label β)} {τ τ' : Clocked β}

/-- **No timeout of `call_port/4` runs out.** Wherever the request is, it is not too late for what
comes next, and all that can come next is over in time. -/
theorem OnTime.no_timeOut (T : OnTime L h τ) {time : Nat} (inTime : τ.InTime L time) {p : Pending β}
    (waits : τ.system.server.pending = some p) (nothing : responses τ.system.server.mailbox = []) :
    time < τ.asked + p.command.portTimeout := by
  have short := L.short p.command
  rw [Command.portTimeout_eq]
  obtain ⟨stage, there⟩ := T.sane.served.aligned.exists_at waits
  cases stage with
  | sent =>
    obtain ⟨command, rest, asks⟩ := List.exists_cons_of_ne_nil there
    obtain ⟨-, -, -, p', waits', rfl⟩ := T.sane.served.aligned.asked asks
    obtain rfl := Option.some.inj (waits.symm.trans waits')
    have read := inTime.request p.command (by simp [asks])
    omega
  | begun =>
    obtain ⟨op, pending⟩ := Program.exists_waits there
    have due := T.due p op waits pending
    have looked := inTime.poll op pending
    omega
  | written =>
    obtain ⟨r, sent⟩ := there
    have written := T.written p r waits sent
    have delivered := inTime.delivery (List.any_eq_true.mpr ⟨_, sent, rfl⟩)
    omega
  | arrived => exact absurd nothing there

omit [Octet β] in
theorem exitOf_returns {α : Type} {Q : α → Prop} {x : Except Stop α}
    (returns : Program.Returns Q x) : System.exitOf x = none := by
  cases x with
  | ok a => rfl
  | error stop =>
    cases stop with
    | blocked => rfl
    | errx message => exact returns.elim

/-- **Neither process ends in an event.** -/
theorem ends_of_sane {σ : System β} (S : System.Sane h σ) {e : System.Event β}
    (stuck : System.step σ e = none) : σ.ends e = none := by
  cases e with
  | turn now clock =>
    have nothing : Server.next σ.server = none := by
      by_contra some
      obtain ⟨σ', out, took⟩ := S.exists_turn some now clock
      exact absurd (stuck.symm.trans took) (by simp)
    simp [System.ends, nothing]
  | request os =>
    simp only [System.ends]
    split
    · rfl
    · next command rest asks =>
      obtain ⟨-, idle, -, p, waits, rfl⟩ := S.served.aligned.asked asks
      exact exitOf_returns (Program.request_returns idle
        (Command.wellFormed_of_timeout (S.waits p waits).command) os)
  | process os => exact exitOf_returns (Program.process_returns S.served.aligned.sound os)
  | call | expire | deliver => rfl

/-! ## Every step -/

section

variable {time : Nat} {e : System.Event β} {σ : System β}

omit [Octet β] in
/-- A response lies in the pipe no longer than before. -/
theorem written_after {r : Response β} (before : .response r ∈ τ.system.stdout) :
    (τ.after time e σ).written = τ.written := by
  have some : τ.system.stdout.any Program.isResponse = true :=
    List.any_eq_true.mpr ⟨_, before, rfl⟩
  exact if_pos some

omit [Octet β] in
/-- A response that was not in the pipe has come by now. -/
theorem written_now (before : ∀ r, .response r ∉ τ.system.stdout) :
    (τ.after time e σ).written = time := by
  have none : ¬ τ.system.stdout.any Program.isResponse = true := fun some => by
    obtain ⟨o, inside, response⟩ := List.any_eq_true.mp some
    cases o with
    | response r => exact before r inside
    | notif n => exact absurd response (by simp [Program.isResponse])
  exact if_neg none

/-- The `receive` of the callback that waits takes its timeout. -/
theorem alive_after (S : System.Sane h σ) : (τ.after time e σ).exited = none := by
  refine if_neg fun long => ?_
  cases waits : σ.server.pending with
  | none => exact absurd long (by simp [waits])
  | some p =>
    rw [waits] at long
    have short := Command.portTimeout_le (S.waits p waits).command
    exact absurd (of_decide_eq_true long) (Nat.not_lt_of_le short)

omit [Octet β] in
theorem asked_after (time : Nat) (σ : System β) (noTurn : e.isTurn = false) :
    (τ.after time e σ).asked = τ.asked := by
  simp [after, noTurn]

/-- What is pending stays so, with its deadline, and no response is added. -/
theorem OnTime.beside (T : OnTime L h τ) (noTurn : e.isTurn = false)
    (sane : System.Sane (h ++ out) σ) (pending : σ.server.pending = τ.system.server.pending)
    (program : σ.program = τ.system.program) (stdout : ∀ o ∈ σ.stdout, o ∈ τ.system.stdout) :
    OnTime L (h ++ out) (τ.after time e σ) := by
  have asked := asked_after (τ := τ) time σ noTurn
  refine ⟨sane, alive_after sane, fun p op waits due => ?_, fun p r waits sent => ?_⟩
  · change σ.server.pending = some p at waits
    change σ.program.uart.waits op = true at due
    show (σ.program.uart.completionDeadline op).toNat ≤ _
    rw [pending] at waits
    rw [program] at due
    rw [program, asked]
    exact T.due p op waits due
  · change σ.server.pending = some p at waits
    rw [pending] at waits
    rw [asked, written_after (stdout _ sent)]
    exact T.written p r waits (stdout _ sent)

end

section

variable (T : OnTime L h τ) {time : Nat} (inTime : τ.InTime L time) {σ : System β}

include T

/-- A turn asks for what has not been read yet. -/
theorem OnTime.turn {now clock : Int}
    (took : System.step τ.system (.turn now clock) = some (σ, out))
    (sane : System.Sane (h ++ out) σ) :
    OnTime L (h ++ out) (τ.after time (.turn now clock) σ) := by
  obtain ⟨taken, rest, ran, next, -, -, rfl⟩ := System.step_turn took
  obtain ⟨-, -, -, -, -, -, -, idle, none, -⟩ := T.sane.served.aligned.next next
  refine ⟨sane, alive_after sane, fun p op waits due => ?_, fun p r waits sent => ?_⟩
  · change τ.system.program.uart.waits op = true at due
    exact absurd (Program.pending_of_waits due) (by simp [idle])
  · rw [responses_append] at none
    have sent : r ∈ responses (τ.system.stdout.map System.msg) :=
      System.mem_responses_map_msg.mpr sent
    rw [(List.append_eq_nil_iff.mp none).2] at sent
    exact absurd sent List.not_mem_nil

include inTime

/-- A request is handled: what it leaves pending is due in time. -/
theorem OnTime.request {os : Os β} (read : ∀ op, (os.clock op).toNat ≤ time)
    (took : System.step τ.system (.request os) = some (σ, out))
    (sane : System.Sane (h ++ out) σ) :
    OnTime L (h ++ out) (τ.after time (.request os) σ) := by
  have asked := asked_after (τ := τ) (e := .request os) time σ rfl
  cases System.step_cases took with
  | @request _ command rest q asks handled =>
    obtain ⟨-, idle, quiet, p, waits, rfl⟩ := T.sane.served.aligned.asked asks
    have begun := inTime.request p.command (by simp [asks])
    have short := (T.sane.waits p waits).command
    refine ⟨sane, alive_after sane, fun p' op waits' due => ?_, fun p' r waits' sent => ?_⟩
    · obtain rfl := Option.some.inj (waits.symm.trans waits')
      have clock := read op
      have deadline := Program.due_of_request idle short (clock.trans_lt inTime.early) handled due
      change (q.uart.completionDeadline op).toNat ≤ _
      rw [deadline, asked]
      omega
    · obtain rfl := Option.some.inj (waits.symm.trans waits')
      have before : ∀ r, .response r ∉ τ.system.stdout := fun r inside => by
        have mem : r ∈ responses τ.system.incoming := by
          rw [System.incoming, responses_append]
          exact List.mem_append_right _ (System.mem_responses_map_msg.mpr inside)
        rw [quiet] at mem
        exact absurd mem List.not_mem_nil
      rw [asked, written_now before]
      omega

/-- The main loop has gone round: what it answers was due, or is answered early. -/
theorem OnTime.process {os : Os β}
    (took : System.step τ.system (.process os) = some (σ, out))
    (sane : System.Sane (h ++ out) σ) :
    OnTime L (h ++ out) (τ.after time (.process os) σ) := by
  have asked := asked_after (τ := τ) (e := .process os) time σ rfl
  have sound := T.sane.served.aligned.sound
  cases System.step_cases took with
  | @process _ q handled =>
    refine ⟨sane, alive_after sane, fun p op waits due => ?_, fun p r waits sent => ?_⟩
    · obtain ⟨before, same⟩ := Program.due_of_process sound handled due
      change (q.uart.completionDeadline op).toNat ≤ _
      rw [same, asked]
      exact T.due p op waits before
    · by_cases before : ∃ r, .response r ∈ τ.system.stdout
      · obtain ⟨r, before⟩ := before
        rw [asked, written_after before]
        exact T.written p r waits before
      · -- it was sent now, for something that was pending and that the loop was in time for
        have new : .response r ∈ q.out :=
          (List.mem_append.mp sent).resolve_left fun earlier => before ⟨r, earlier⟩
        obtain ⟨op, pending⟩ := Program.exists_waits (Program.pending_of_answer sound handled new)
        have due := T.due p op waits pending
        have looked := inTime.poll op pending
        rw [asked, written_now fun r inside => before ⟨r, inside⟩]
        omega

end

/-- **A step of the two is on time**, if it is over in time. -/
theorem OnTime.stepped (T : OnTime L h τ) {time : Nat} {e : System.Event β} {σ : System β}
    (inTime : τ.InTime L time) (read : e.ReadBy time) (fit : System.Fit h τ.system e)
    (took : System.step τ.system e = some (σ, out)) : OnTime L (h ++ out) (τ.after time e σ) := by
  have sane := System.step_sane T.sane fit took
  cases e with
  | turn now clock => exact T.turn took sane
  | request os => exact T.request inTime read took sane
  | process os => exact T.process inTime took sane
  | call fromPid call =>
    cases System.step_cases took with
    | call => exact T.beside rfl sane rfl rfl fun _ => id
  | expire tref =>
    cases System.step_cases took with
    | expire => exact T.beside rfl sane rfl rfl fun _ => id
  | deliver =>
    cases System.step_cases took with
    | deliver stdout =>
      refine T.beside rfl sane rfl rfl fun o inside => ?_
      rw [stdout]
      exact List.mem_cons_of_mem _ inside

/-- **What happens in time is a step of the two.** -/
theorem OnTime.step_cases (T : OnTime L h τ) {e : Event β} (prompt : Prompt L h τ e)
    (took : step τ e = some (τ', out)) :
    ∃ time e', e = .step time e' ∧ System.step τ.system e' = some (τ'.system, out) ∧
      OnTime L (h ++ out) τ' := by
  unfold Clocked.step at took
  rw [T.alive, if_neg (by simp)] at took
  cases e with
  | timeOut time =>
    dsimp only at took
    split at took
    · exact absurd took (by simp)
    · next p waits =>
      split at took
      · next ranOut =>
        have nothing := List.isEmpty_iff.mp ranOut.1
        exact absurd ranOut.2 (Nat.not_le_of_lt (T.no_timeOut prompt waits nothing))
      · exact absurd took (by simp)
  | step time e' =>
    obtain ⟨inTime, read, fit⟩ := prompt
    dsimp only at took
    split at took
    · next σ out' stepped =>
      obtain ⟨rfl, rfl⟩ := Prod.mk.inj (Option.some.inj took)
      exact ⟨time, e', rfl, stepped, T.stepped inTime read fit stepped⟩
    · next stuck =>
      rw [ends_of_sane T.sane stuck] at took
      exact absurd took (by simp)

theorem onTime_init : OnTime L [] ({} : Clocked β) where
  sane := System.sane_init
  alive := rfl
  due _ _ waits := absurd waits (by simp)
  written _ _ waits := absurd waits (by simp)

theorem onTime_of_reach (r : Reach step (Prompt L) ({} : Clocked β) h τ) : OnTime L h τ := by
  have keep : ∀ h (τ : Clocked β) e τ' out, OnTime L h τ → Prompt L h τ e →
      step τ e = some (τ', out) → OnTime L (h ++ out) τ' := fun _ _ _ _ _ T prompt took => by
    obtain ⟨-, -, -, -, onTime⟩ := T.step_cases prompt took
    exact onTime
  exact Reach.invariant onTime_init keep r

/-! ## A run that is in time -/

instance {P : Transfer → Prop} [DecidablePred P] : Decidable (∀ op, P op) :=
  decidable_of_iff (P .write ∧ P .read)
    ⟨fun both op => by cases op; exacts [both.1, both.2], fun all => ⟨all _, all _⟩⟩

instance (L : Latency) (τ : Clocked UInt8) (time : Nat) : Decidable (τ.InTime L time) :=
  decidable_of_iff
    (τ.now ≤ time ∧ time < 2 ^ 63 ∧
      (∀ command ∈ τ.system.stdin, time ≤ τ.asked + L.request command) ∧
      (∀ op, τ.system.program.uart.waits op = true →
        time ≤ (τ.system.program.uart.completionDeadline op).toNat + L.poll) ∧
      (τ.system.stdout.any Program.isResponse = true → time ≤ τ.written + L.delivery))
    ⟨fun T => ⟨T.1, T.2.1, T.2.2.1, T.2.2.2.1, T.2.2.2.2⟩,
      fun T => ⟨T.later, T.early, T.request, T.poll, T.delivery⟩⟩

/-- A tenth of a second for each. -/
def tenths : Latency where
  request _ := 100
  poll := 100
  delivery := 100
  short command := by cases command <;> simp [Command.slack, CALL_PORT_TIMEOUT, PORT_TIMEOUT_SLACK]

/-- A port is opened and read. Nothing comes in time, and the loop is ten milliseconds late to
look. -/
def lateReadEvent : ℕ → Event UInt8
  | 0 => .step 0 (.call 7 (.open ttyS0 [.active false]))
  | 1 => .step 0 (.turn 0 0)
  | 2 => .step 10 (.request { opened := fun _ => .ok (3, .raw) })
  | 3 => .step 20 .deliver
  | 4 => .step 20 (.turn 20 20)
  | 5 => .step 30 (.call 7 (.read 100))
  | 6 => .step 30 (.turn 30 30)
  | 7 => .step 40 (.request { reads := [.error .eagain], readClock := 40 })
  | 8 => .step 150 (.process { reads := [.error .eintr, .error .eagain], readClock := 150 })
  | 9 => .step 160 .deliver
  | 10 => .step 160 (.turn 160 160)
  | _ => .step 160 (.process {})

def lateRead : ℕ → Clocked UInt8 × List (System.Label UInt8)
  | 0 => ({}, [])
  | n + 1 => (step (lateRead n).1 (lateReadEvent n)).getD ({}, [])

theorem lateRead_rest (n : ℕ) : (lateRead (n + 12)).1 = (lateRead 12).1 := by
  induction n with
  | zero => rfl
  | succ n ih =>
    rw [show n + 1 + 12 = (n + 12) + 1 from rfl, lateRead, ih]
    rfl

def lateReadRun : Execution step (Prompt tenths) ({} : Clocked UInt8) where
  state n := (lateRead n).1
  event := lateReadEvent
  out n := (lateRead (n + 1)).2
  start := rfl
  guard
    | 0 => ⟨by decide, trivial,
      fun args asked => absurd (show none = some _ from asked) (by simp)⟩
    | 1 | 6 => ⟨by decide, trivial, fun p timeout callTime waits =>
      absurd (show none = some p from waits) (by simp)⟩
    | 4 => ⟨by decide, trivial, fun p timeout callTime waits cont => by
      obtain rfl := Option.some.inj waits
      exact absurd cont (by simp)⟩
    | 10 => ⟨by decide, trivial, fun p timeout callTime waits cont => by
      obtain rfl := Option.some.inj waits
      obtain ⟨-, rfl⟩ := Cont.reading.inj cont
      decide⟩
    | 2 | 7 | 8 => ⟨by decide, fun op => by cases op <;> decide, trivial⟩
    | 3 | 9 => ⟨by decide, trivial, trivial⟩
    | 5 => ⟨by decide, trivial, show 100 < 2 ^ 31 by decide⟩
    | 11 => ⟨by decide, fun op => by cases op <;> decide, trivial⟩
    | n + 12 => by
      have rest := lateRead_rest n
      refine ⟨?_, fun op => by cases op <;> decide, trivial⟩
      show (lateRead (n + 12)).1.InTime tenths 160
      rw [rest]
      decide
  took
    | 0 | 1 | 2 | 3 | 4 | 5 | 6 | 7 | 8 | 9 | 10 | 11 => rfl
    | n + 12 => by
      have rest := lateRead_rest n
      have next : lateRead (n + 12 + 1) =
          (step (lateRead (n + 12)).1 (.step 160 (.process {}))).getD ({}, []) := rfl
      show step (lateRead (n + 12)).1 (.step 160 (.process {})) = some (lateRead (n + 12 + 1))
      rw [next, rest]
      rfl

/-! ## Every run -/

/-- The event without its time. -/
def Event.untimed : Event β → System.Event β
  | .step _ e => e
  | .timeOut _ => .deliver

/-- A prompt run of the two by the clock is one of the two. -/
def untimed (run : Execution step (Prompt L) ({} : Clocked β)) :
    Execution System.step System.Fit ({} : System β) where
  state n := (run.state n).system
  event n := (run.event n).untimed
  out := run.out
  start := by rw [run.start]
  guard n := by
    have prompt := run.guard n
    obtain ⟨time, e, same, -⟩ :=
      (onTime_of_reach (run.reach n)).step_cases prompt (run.took n)
    rw [same] at prompt ⊢
    exact prompt.2.2
  took n := by
    obtain ⟨time, e, same, stepped, -⟩ :=
      (onTime_of_reach (run.reach n)).step_cases (run.guard n) (run.took n)
    rw [same]
    exact stepped

theorem lateReadRun_fair : System.Fair (untimed lateReadRun) := by
  have rest : ∀ n, n ≤ n + 12 ∧ (untimed lateReadRun).state (n + 12) = (lateRead 12).1.system :=
    fun n => ⟨by omega, congrArg system (lateRead_rest n)⟩
  refine ⟨fun n => ⟨_, (rest n).1, .inr ?_⟩, fun n => ⟨_, (rest n).1, .inr ?_⟩,
    fun n => ⟨_, (rest n).1, .inr ?_⟩, fun n => ⟨_, (rest n).1, .inr ?_⟩⟩
  · rintro ⟨_, σ', out, ⟨now, clock, rfl⟩, took⟩
    rw [(rest n).2] at took
    exact absurd took
      (by simp [show System.step (lateRead 12).1.system (.turn now clock) = none from rfl])
  · rintro ⟨_, σ', out, rfl, took⟩
    rw [(rest n).2] at took
    exact absurd took (by simp [show System.step (lateRead 12).1.system .deliver = none from rfl])
  · rintro ⟨_, σ', out, ⟨os, rfl⟩, took⟩
    rw [(rest n).2] at took
    exact absurd took
      (by simp [show System.step (lateRead 12).1.system (.request os) = none from rfl])
  · intro pending
    rw [(rest n).2] at pending
    exact absurd pending (by simp [show (lateRead 12).1.system.program.pending = false from rfl])

end Clocked

end CircuitsUart
