import CircuitsUart.Server.ReadLoop
import CircuitsUart.System.Calls

/-!
# Neither process gets stuck

A callback of the server crashes on a response it has no clause for, and never returns from a
framer that makes no progress. The C program stops in `errx` on a request it cannot take, and does
not return from a system call that is interrupted for ever. None of this happens: `Sane` is what
holds of the server's framer and of what the calls ask for, and `Served` (`Calls`) what holds of
the responses.

## What the calls have to keep to

`Fit` asks three things of a run, each of which the code leaves to its callers.

* A framer has room for a byte and a separator (`UsableFraming`). With `max_length: 0` or an empty
  separator `Line` goes round its loop for ever.
* A timeout is below `2 ^ 31` (`Call.Proper`). From there on it is negative once it is an `int`,
  and the C program waits for a year, longer than `call_port/4` does; from `2 ^ 63` on it is no
  `long`, and the C program exits.
* The clock does not run backwards under a read, which would ask for more time than it was given.

Commands are typed here, so a request is one that the C program can decode and that fits its
buffer. Time is left out, and with it the exit of a callback that waits too long for the port;
`Clocked` adds it.
-/

set_option autoImplicit false

namespace CircuitsUart

open Lib Port Server

/-- The timeout in a command. -/
def Command.timeout : Command → Nat
  | .read timeout | .write _ timeout => timeout
  | _ => 0

theorem Command.wellFormed_of_timeout {command : Command} (short : command.timeout < 2 ^ 31) :
    command.WellFormed := by
  cases command with
  | write | read =>
    dsimp only [timeout, WellFormed] at short ⊢
    unfold LONG_MAX
    omega
  | _ => trivial

/-! ## The C program comes back -/

/-- Every system call comes to something other than an interrupt. -/
structure Port.Os.Responds {β : Type} (os : Os β) : Prop where
  reads : ∃ result ∈ os.reads, result ≠ .error .eintr
  writes : ∃ result ∈ os.writes, result ≠ .error .eintr

namespace Program

variable {β : Type}

theorem retry_isSome {α : Type} {results : List (Except Errno α)}
    (h : ∃ result ∈ results, result ≠ .error .eintr) (errno : Errno) :
    ∃ got, retry errno results = some got := by
  obtain ⟨result, mem, other⟩ := h
  induction results generalizing errno with
  | nil => exact absurd mem (by simp)
  | cons first rest ih =>
    rcases List.mem_cons.mp mem with rfl | later
    · cases result with
      | ok a => exact ⟨_, rfl⟩
      | error e =>
        cases e with
        | eintr => exact absurd rfl other
        | _ => exact ⟨_, rfl⟩
    · cases first with
      | ok a => exact ⟨_, rfl⟩
      | error e =>
        cases e with
        | eintr => exact ih .eintr later
        | _ => exact ⟨_, rfl⟩

/-- A computation that is not stuck in a system call. -/
def Settles {α : Type} (x : Except Stop α) : Prop := x ≠ .error .blocked

theorem Settles.ok {α : Type} (a : α) : Settles (.ok a) := by simp [Settles]

theorem Settles.errx {α : Type} (message : String) :
    Settles (.error (.errx message) : Except Stop α) := by simp [Settles]

theorem Settles.bind {α γ : Type} {x : Except Stop α} {f : α → Except Stop γ} (hx : Settles x)
    (hf : ∀ a, Settles (f a)) : Settles (x >>= f) := by
  cases x with
  | ok a => exact hf a
  | error stop => exact fun h => hx (by rw [Except.error.inj h])

/-- What ends neither way returns. -/
theorem Returns.exists_ok {α : Type} {Q : α → Prop} {x : Except Stop α} (h : Returns Q x)
    (settles : Settles x) : ∃ a, x = .ok a ∧ Q a := by
  cases x with
  | ok a => exact ⟨a, rfl, h⟩
  | error stop =>
    cases stop with
    | blocked => exact absurd rfl settles
    | errx message => exact h.elim

variable {os : Os β} {p : Program β}

theorem settles_read (responds : os.Responds) : Settles (p.read os) := by
  unfold Program.read
  split
  · exact .ok _
  · obtain ⟨got, hgot⟩ := retry_isSome responds.reads p.dev.errno
    rw [hgot]
    exact .ok _

theorem settles_write (responds : os.Responds) (len : Nat) : Settles (p.write os len) := by
  unfold Program.write
  split
  · exact .ok _
  · obtain ⟨got, hgot⟩ := retry_isSome responds.writes p.dev.errno
    rw [hgot]
    exact .ok _

theorem settles_processRead (responds : os.Responds) : Settles (p.processRead os) := by
  refine (settles_read responds).bind fun ⟨result, q⟩ => ?_
  dsimp only
  split
  · split <;> exact .ok _
  · exact .ok _
  · split
    · split <;> exact .ok _
    · exact .ok _

theorem settles_processWrite (responds : os.Responds) : Settles (p.processWrite os) := by
  unfold Program.processWrite
  split
  · refine (settles_write responds _).bind fun ⟨result, q⟩ => ?_
    dsimp only
    split
    · split <;> exact .ok _
    · split <;> exact .ok _
  · exact .ok _

theorem settles_uartProcess (responds : os.Responds) : Settles (p.uartProcess os) := by
  unfold Program.uartProcess
  split
  · exact .ok _
  · refine (settles_processWrite responds).bind fun q => ?_
    split
    · exact settles_processRead responds
    · exact .ok _

theorem settles_whenOpen {go : Program β → Except Stop (Program β)} (goes : ∀ p, Settles (go p)) :
    Settles (p.whenOpen go) := by
  unfold Program.whenOpen
  split
  · exact goes p
  · exact .ok _

theorem settles_decodeTimeout (timeout : Nat) : Settles (decodeTimeout timeout) := by
  unfold decodeTimeout
  split
  · exact .ok _
  · exact .errx _

theorem settles_uartWrite (responds : os.Responds) (data : List UInt8) (timeout : Int) :
    Settles (p.uartWrite os data timeout) := by
  unfold Program.uartWrite
  split
  · exact .errx _
  · refine (settles_write responds _).bind fun ⟨result, q⟩ => ?_
    dsimp only
    split
    · split <;> exact .ok _
    · split
      · split <;> exact .ok _
      · exact .ok _

theorem settles_uartRead (responds : os.Responds) (timeout : Int) :
    Settles (p.uartRead os timeout) := by
  unfold Program.uartRead
  split
  · exact .ok _
  · split
    · exact .errx _
    · refine (settles_read responds).bind fun ⟨result, q⟩ => ?_
      dsimp only
      split
      · exact .ok _
      · exact .ok _
      · split <;> exact .ok _

theorem settles_handleElixirRequest (responds : os.Responds) (command : Command) :
    Settles (p.handleElixirRequest os command) := by
  cases command with
  | write data timeout =>
    exact settles_whenOpen fun p => (settles_decodeTimeout timeout).bind fun t =>
      settles_uartWrite responds data t
  | read timeout =>
    exact settles_whenOpen fun p => (settles_decodeTimeout timeout).bind fun t =>
      settles_uartRead responds t
  | configure opts =>
    rw [Program.handleElixirRequest, Program.handleConfigure]
    split
    · exact .ok _
    · refine Settles.bind ?_ fun r => ?_
      · unfold uartConfigure
        split
        · exact .errx _
        · dsimp only
          split
          · exact .ok _
          · split <;> exact .ok _
      · rcases r with ⟨_ | _, q⟩ <;> exact .ok _
  | drain =>
    rw [Program.handleElixirRequest, handleDrain]
    refine settles_whenOpen fun p => Settles.bind ?_ fun r => .ok _
    unfold uartDrain
    split
    · exact .errx _
    · exact .ok _
  | flush direction =>
    rw [Program.handleElixirRequest, Program.handleFlush]
    refine settles_whenOpen fun p => Settles.bind ?_ fun r => .ok _
    unfold uartFlush
    split
    · exact .errx _
    · exact .ok _
  | signals =>
    rw [Program.handleElixirRequest, handleSignals]
    refine settles_whenOpen fun p => ?_
    split <;> exact .ok _
  | setRts value | setDtr value | setBreak value => exact settles_whenOpen fun p => .ok _
  | «open» name opts => exact .ok _
  | configuration | close => exact .ok _

/-- **A request that nothing is pending for does not end in `errx`.** -/
theorem request_returns (idle : p.pending = false) {command : Command} (wf : command.WellFormed)
    (os : Os β) : Returns (fun _ => True) (p.handle (.request os command)) :=
  (handleElixirRequest_answered (p := p.enter os) idle os wf).mono fun _ _ => trivial

/-- It is handled if the system calls come back. -/
theorem exists_request (responds : os.Responds) (idle : p.pending = false) {command : Command}
    (wf : command.WellFormed) : ∃ q, p.handle (.request os command) = .ok q := by
  obtain ⟨q, hq, -⟩ := (request_returns idle wf os).exists_ok
    (settles_handleElixirRequest responds command)
  exact ⟨q, hq⟩

/-- **`uart_process` does not end in `errx`.** -/
theorem process_returns (sound : Sound p) (os : Os β) :
    Returns (fun _ => True) (p.handle (.process os)) :=
  (uartProcess_kept (p := p.enter os) ⟨sound.one, sound.isOpen, sound.passive⟩ os).mono
    fun _ _ => trivial

/-- The main loop comes back from it if the system calls do. -/
theorem exists_process (responds : os.Responds) (sound : Sound p) :
    ∃ q, p.handle (.process os) = .ok q := by
  obtain ⟨q, hq, -⟩ := (process_returns sound os).exists_ok (settles_uartProcess responds)
  exact ⟨q, hq⟩

end Program

/-! ## Callbacks come back -/

namespace Server

variable {β : Type}

/-- The framer that options ask for, if they do, has room for a byte and a separator. -/
def UsableFraming (opts : List UartOption) : Prop :=
  ∀ args, keywordGet (fun o => o.framing?.map some) opts none = some (.withArgs .line args) →
    0 < args.maxLength.getD 4096 ∧ args.separator.getD [10] ≠ []

/-- A call whose timeout, if it has one, is no negative `int`, and whose framer is usable. -/
def Call.Proper : Call → Prop
  | .open _ opts | .configure opts => UsableFraming opts
  | .read timeout | .write _ timeout => timeout < 2 ^ 31
  | _ => True

/-- What a callback waits with is of such a call. -/
structure Pending.Proper (p : Pending β) : Prop where
  command : p.command.timeout < 2 ^ 31
  opening : ∀ name opts, p.cont = .opening name opts → UsableFraming opts

theorem Waits.proper {call : Call} {p : Pending β} (waits : Waits call p) (proper : call.Proper)
    (within : ∀ timeout left, call = .read timeout → p.command = .read left → left ≤ timeout) :
    p.Proper := by
  cases waits with
  | «open» name opts =>
    refine ⟨Nat.two_pow_pos 31, fun name' opts' heq => ?_⟩
    obtain ⟨-, rfl⟩ := Cont.opening.inj heq
    exact proper
  | read timeout left => exact ⟨(within timeout left rfl rfl).trans_lt proper, by simp⟩
  | write data timeout => exact ⟨proper, by simp⟩
  | _ => exact ⟨Nat.two_pow_pos 31, by simp⟩

variable [Octet β]

/-- A new framer is usable if it is asked for with such options. -/
theorem usable_changeFraming {s : State β} {opts : List UartOption} (usable : s.framer.Usable)
    (framing : UsableFraming opts) :
    (changeFraming s (keywordGet (fun o => o.framing?.map some) opts none)).framer.Usable := by
  cases asked : keywordGet (fun o => o.framing?.map some) opts none with
  | none => exact usable
  | some opt =>
    cases opt with
    | module m => exact Framer.usable_init fun _ => ⟨by simp, by simp⟩
    | withArgs m args =>
      refine Framer.usable_init fun line => ?_
      subst line
      exact framing args asked

theorem usable_flush {f : Framer β} (usable : f.Usable) (direction : Direction) :
    (f.flush direction).Usable := by
  obtain ⟨f', out, flushed, usable', -⟩ := usable.operate (.flush direction)
  obtain ⟨rfl, -⟩ := Prod.mk.inj (Option.some.inj flushed)
  exact usable'

theorem usable_afterData {s : State β} (timers : Timers) {framer : Framer β} (rc : Rc)
    (usable : framer.Usable) : (afterData s timers framer rc).state.framer.Usable := by
  rw [afterData, handleFramingTimer_framer]
  exact usable

/-- **A turn keeps the framer usable.** -/
theorem Turn.usable {s : State β} {timers : Timers} {taken : Taken β} {ran : Ran β}
    (h : Turn s timers taken ran) (usable : s.framer.Usable)
    (call : ∀ pid c, taken = .message (.call pid c) → c.Proper)
    (waits : ∀ p r, taken = .response p r → Coherent s p ∧ p.Proper) :
    ran.state.framer.Usable := by
  cases h with
  | ask | readQueued | control | failed | answered => exact usable
  | configure => exact usable_changeFraming usable (call _ _ rfl)
  | flush => exact usable_flush usable _
  | notified framed => exact usable_afterData timers _ (usable.removeFraming framed)
  | timedOut =>
    obtain ⟨f', out, gone, usable', -⟩ := usable.operate .frameTimeout
    obtain ⟨rfl, -⟩ := Prod.mk.inj (Option.some.inj gone)
    rw [handleTimedOut, notifyTimedoutMessages_state]
    exact usable'
  | opened cont => exact usable_changeFraming usable ((waits _ _ rfl).2.opening _ _ cont)
  | closed =>
    rw [resumeClosing, replyWith, handleFramingTimer_framer]
    exact usable_flush usable .both
  | wrote cont =>
    have same := (waits _ _ rfl).1
    rw [Coherent, cont] at same
    rw [replyWith, same]
    exact usable
  | readData _ _ framed => exact usable_afterData timers _ (usable.removeFraming framed)
  | readMore _ _ framed =>
    have usable' := usable_afterData (s := s) timers ‹Rc› (usable.removeFraming framed)
    unfold handleRead
    split <;> exact usable'

/-- A response that answers what was asked is taken. -/
theorem exists_resume {s : State β} (usable : s.framer.Usable) (timers : Timers) (now clock : Int)
    {p : Pending β} {r : Response β} {call : Call} (waits : Waits call p)
    (answers : r.Answers p.command) : ∃ ran, resume s timers p now clock r = some ran := by
  cases waits with
  | read timeout left callTime fromPid =>
    obtain ⟨ran, hran, -⟩ := @resumeReading_cases _ _ s timers fromPid left
      callTime now clock usable r
    exact ⟨ran, hran⟩
  | configuration =>
    cases r with
    | options => exact ⟨_, rfl⟩
    | _ => exact answers.elim
  | _ => exact ⟨_, rfl⟩

/-- A message that is no response is taken. -/
theorem exists_run {s : State β} (usable : s.framer.Usable) (timers : Timers) (now clock : Int)
    {m : Msg β} (other : ∀ r, m ≠ .resp r) :
    ∃ ran, run s timers now clock (.message m) = some ran := by
  cases m with
  | call pid call => exact ⟨_, rfl⟩
  | resp r => exact absurd rfl (other r)
  | rxFramingTimedOut tref => exact ⟨_, rfl⟩
  | notif n =>
    cases n with
    | error reason => exact ⟨_, rfl⟩
    | data data =>
      obtain ⟨rc, ms, f', framed, -⟩ := Framer.exists_removeFraming usable data
      exact ⟨_, by simp only [run, handlePort, framed]; rfl⟩

/-- A read that goes on asks for what is left of its timeout. -/
theorem resume_proper {s : State β} (usable : s.framer.Usable) {timers : Timers} {now clock : Int}
    {p q : Pending β} {r : Response β} {ran : Ran β} {call : Call}
    (h : resume s timers p now clock r = some ran) (waits : Waits call p) (proper : p.Proper)
    (steady : ∀ timeout callTime, p.cont = .reading timeout callTime → callTime ≤ now)
    (goesOn : ran.pending = some q) : q.Proper := by
  cases waits with
  | read timeout left callTime fromPid =>
    obtain ⟨ran', hran, ends⟩ := @resumeReading_cases _ _ s timers fromPid left
      callTime now clock usable r
    obtain rfl := Option.some.inj (hran.symm.trans h)
    rcases ends with ⟨ended, -⟩ | ⟨again, -⟩
    · exact absurd (ended.symm.trans goesOn) (by simp)
    · obtain rfl := Option.some.inj (again.symm.trans goesOn)
      have limit : left < 2 ^ 31 := proper.command
      have later := steady left callTime rfl
      refine ⟨?_, by simp⟩
      show (left - (now - callTime) : Int).toNat < 2 ^ 31
      omega
  | configuration =>
    cases r with
    | options =>
      obtain rfl := Option.some.inj h
      exact absurd goesOn (by simp [replyWith])
    | _ => exact absurd h (by simp [resume])
  | _ =>
    obtain rfl := Option.some.inj h
    exact absurd goesOn (by simp [replyWith, resumeOpening, resumeClosing])

end Server

/-! ## The two processes -/

namespace System

variable {β : Type}

/-- Only proper calls are made, and the clock does not run backwards under a read. -/
def Fit (_ : List (Label β)) (σ : System β) : Event β → Prop
  | .call _ call => call.Proper
  | .turn now _ => ∀ p timeout callTime, σ.server.pending = some p →
      p.cont = .reading timeout callTime → callTime ≤ now
  | _ => True

variable [Octet β]

/-- Calls are served, on a usable framer, and ask for what is proper. -/
structure Sane (h : List (Label β)) (σ : System β) : Prop where
  served : Served h σ
  framer : σ.server.state.framer.Usable
  mail : ∀ pid call, .call pid call ∈ σ.server.mailbox → call.Proper
  waits : ∀ p, σ.server.pending = some p → p.Proper

/-- The call of a callback that waits. -/
theorem Sane.waiting {h : List (Label β)} {σ : System β} (S : Sane h σ) {p : Pending β}
    (waits : σ.server.pending = some p) : ∃ call, Waits call p := by
  obtain ⟨_, served, -, -, waiting⟩ := S.served.calls
  rw [waits] at waiting
  obtain ⟨⟨_, call⟩, _, ⟨-, serves⟩, -, -⟩ := List.forall₂_cons_right_iff.mp waiting
  exact ⟨call, serves⟩

/-- What is taken can be. -/
theorem Sane.exists_run {h : List (Label β)} {σ : System β} (S : Sane h σ) {taken : Taken β}
    {rest : List (Msg β)} (next : Server.next σ.server = some (taken, rest)) (now clock : Int) :
    ∃ ran, Server.run σ.server.state σ.server.timers now clock taken = some ran := by
  rcases next_eq_some next with ⟨m, rfl, idle, mailbox⟩ | ⟨p, r, -, -, rfl, -⟩
  · refine Server.exists_run S.framer _ now clock fun r heq => ?_
    have none := (S.served.aligned.quiet idle).responses
    rw [incoming, mailbox, heq] at none
    exact absurd none (by simp [responses])
  · obtain ⟨waits, mem⟩ := mem_responses_of_next next
    obtain ⟨call, serves⟩ := S.waiting waits
    exact exists_resume S.framer _ now clock serves ((S.served.serving p waits).2 r mem)

/-- **A step keeps the two sane.** -/
theorem step_sane {h : List (Label β)} {σ σ' : System β} {e : Event β} {out : List (Label β)}
    (S : Sane h σ) (fit : Fit h σ e) (took : step σ e = some (σ', out)) : Sane (h ++ out) σ' := by
  have served := step_served S.served took
  cases e with
  | turn now clock =>
    obtain ⟨taken, rest, ran, next, run, rfl, rfl⟩ := step_turn took
    obtain ⟨before, m, behind, mailbox, rfl, -, -, -, -, takes⟩ := S.served.aligned.next next
    have calls : ∀ pid call, taken = .message (.call pid call) → call.Proper := by
      intro pid call heq
      rcases takes with ⟨rfl, -⟩ | ⟨p, r, rfl, -⟩
      · obtain rfl := Taken.message.inj heq
        exact S.mail pid call (by simp [mailbox])
      · exact absurd heq (by simp)
    have waits : ∀ p r, taken = .response p r →
        σ.server.pending = some p ∧ Coherent σ.server.state p ∧ p.Proper := by
      rintro p r rfl
      obtain ⟨waits, coherent, -⟩ := S.served.aligned.response next
      exact ⟨waits, coherent, S.waits p waits⟩
    have goes := turn_of_run run
    refine ⟨served, goes.usable S.framer calls fun p r heq => (waits p r heq).2, ?_, ?_⟩
    · intro pid call hc
      refine S.mail pid call ?_
      rw [mailbox]
      rcases List.mem_append.mp hc with hc | hc
      · exact List.mem_append_left _ hc
      · exact List.mem_append_right _ (List.mem_cons_of_mem _ hc)
    · intro q goesOn
      change ran.pending = some q at goesOn
      rcases takes with ⟨rfl, -⟩ | ⟨p, r, rfl, -⟩
      · by_cases isCall : ∃ pid call, m = .call pid call
        · obtain ⟨pid, call, rfl⟩ := isCall
          obtain rfl := Option.some.inj run
          cases handleCall_handles σ.server.state σ.server.timers pid clock call with
          | replied _ _ idle => exact absurd (idle.symm.trans goesOn) (by simp)
          | waits _ pending _ serves =>
            obtain rfl := Option.some.inj (pending.symm.trans goesOn)
            refine serves.proper (calls pid call rfl) ?_
            rintro timeout left rfl asks
            -- a call to read asks for what it was given
            rw [handleCall] at pending
            unfold Server.handleRead at pending
            split at pending
            · exact absurd pending (by simp [replyWith])
            · obtain rfl := Option.some.inj pending
              exact (Command.read.inj asks).ge
        · exact absurd ((run_silent run fun pid call heq => isCall ⟨pid, call, heq⟩).2.symm.trans
            goesOn) (by simp)
      · obtain ⟨pending, -, proper⟩ := waits p r rfl
        obtain ⟨call, serves⟩ := S.waiting pending
        exact resume_proper S.framer run serves proper
          (fun timeout callTime cont => fit p timeout callTime pending cont) goesOn
  | call fromPid call =>
    cases step_cases took with
    | call =>
      refine ⟨served, S.framer, fun pid c hc => ?_, S.waits⟩
      rcases List.mem_append.mp hc with earlier | now
      · exact S.mail pid c earlier
      · obtain ⟨-, rfl⟩ := Msg.call.inj (List.mem_singleton.mp now)
        exact fit
  | expire tref =>
    cases step_cases took with
    | expire =>
      refine ⟨served, S.framer, fun pid c hc => ?_, S.waits⟩
      rcases List.mem_append.mp hc with earlier | now
      · exact S.mail pid c earlier
      · exact absurd (List.mem_singleton.mp now) (by simp)
  | deliver =>
    cases step_cases took with
    | @deliver o rest stdout =>
      refine ⟨served, S.framer, fun pid c hc => ?_, S.waits⟩
      rcases List.mem_append.mp hc with earlier | now
      · exact S.mail pid c earlier
      · exact absurd (List.mem_singleton.mp now) (by cases o <;> simp [msg])
  | request os =>
    cases step_cases took with
    | request => exact ⟨served, S.framer, S.mail, S.waits⟩
  | process os =>
    cases step_cases took with
    | process => exact ⟨served, S.framer, S.mail, S.waits⟩

theorem sane_init : Sane [] ({} : System β) :=
  ⟨served_init, trivial, fun _ _ hc => absurd hc (by simp), fun _ hp => absurd hp (by simp)⟩

theorem sane_of_reach {h : List (Label β)} {σ : System β}
    (r : Reach step Fit ({} : System β) h σ) : Sane h σ := by
  have keep : ∀ h (σ : System β) e σ' out, Sane h σ → Fit h σ e → step σ e = some (σ', out) →
      Sane (h ++ out) σ' := fun _ _ _ _ _ S fit took => step_sane S fit took
  exact Reach.invariant sane_init keep r

/-- A turn can be taken whenever there is something to take. -/
theorem Sane.exists_turn {h : List (Label β)} {σ : System β} (S : Sane h σ)
    (some : Server.next σ.server ≠ none) (now clock : Int) :
    ∃ σ' out, step σ (.turn now clock) = .some (σ', out) := by
  obtain ⟨⟨taken, rest⟩, next⟩ := Option.ne_none_iff_exists'.mp some
  obtain ⟨ran, run⟩ := S.exists_run next now clock
  exact ⟨_, _, by simp only [step, serverStep, Server.step, next, run]; rfl⟩

/-- A request can be handled whenever one has been sent. -/
theorem Sane.exists_request {h : List (Label β)} {σ : System β} (S : Sane h σ) {os : Os β}
    (responds : os.Responds) (some : σ.stdin ≠ []) :
    ∃ σ' out, step σ (.request os) = .some (σ', out) := by
  obtain ⟨command, rest, stdin⟩ := List.exists_cons_of_ne_nil some
  obtain ⟨-, idle, -, p, waits, rfl⟩ := S.served.aligned.asked stdin
  obtain ⟨q, handled⟩ := Program.exists_request responds idle
    (Command.wellFormed_of_timeout (S.waits p waits).command)
  exact ⟨_, _, by simp only [step, stdin, portStep, handled]; rfl⟩

/-- The main loop can always go round. -/
theorem Sane.exists_process {h : List (Label β)} {σ : System β} (S : Sane h σ) {os : Os β}
    (responds : os.Responds) : ∃ σ' out, step σ (.process os) = .some (σ', out) := by
  obtain ⟨q, handled⟩ := Program.exists_process responds S.served.aligned.sound
  exact ⟨_, _, by simp only [step, portStep, handled]; rfl⟩

end System

end CircuitsUart
