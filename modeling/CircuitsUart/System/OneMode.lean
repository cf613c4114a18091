import CircuitsUart.Port.Notified
import CircuitsUart.System.Order

/-!
# In one mode

Only `open` and `configure` set the mode. As long as neither is called nothing is out of turn: in
passive mode the port notifies nobody, so that there is nothing to go past a queued message, and in
active mode it answers no read with data, so that no message is queued.

`System.Order` says that nothing is lost or reordered in a run that goes in turn, which is a
condition on each step. Here that condition is shown to hold of itself, from one on the calls
that an application can see to: those of `Call.keepsMode`. `InMode` is the invariant. It has to
speak of what is on its way as well as of the states, because a message that was sent in one mode
may be taken in the other.
-/

set_option autoImplicit false

namespace CircuitsUart

open Lib Port Server

variable {β : Type}

namespace Program

/-! ## What the port sends in passive mode -/

theorem Quiet.checkWriteDeadline {p q : Program β} (quiet : Quiet p q) (os : Os β) :
    Quiet p (q.checkWriteDeadline os) := by
  unfold Program.checkWriteDeadline
  split
  · exact quiet.respond _
  · exact quiet

section

variable {p q : Program β} (quiet : Quiet p q) (passive : q.uart.activeModeEnabled = false)

include quiet passive

theorem Quiet.uartCloseOnError (reason : Errno) : Quiet p (q.uartCloseOnError reason) := by
  have stillPassive : ¬ q.uartClose.uart.activeModeEnabled = true := by
    rw [uart_uartClose]
    simpa using passive
  unfold Program.uartCloseOnError
  dsimp only
  rw [if_neg stillPassive]
  exact quiet.uartClose

theorem Quiet.readFailed (reason : Errno) : Quiet p (q.readFailed reason) := by
  unfold Program.readFailed
  dsimp only
  split
  · refine Quiet.uartCloseOnError ?_ (by simpa using passive) reason
    exact quiet.respond _
  · exact quiet.uartCloseOnError passive reason

end

section

variable {p : Program β} (passive : p.uart.activeModeEnabled = false)

include passive

theorem uartWrite_quiet (os : Os β) (data : List UInt8) (timeout : Int) :
    Yields (Quiet p) (p.uartWrite os data timeout) := by
  refine (uartWrite_yields os data timeout p).mono fun q ends => ?_
  cases ends.2 with
  | refused | short => exact .refl p
  | broke =>
    refine Quiet.uartCloseOnError ?_ ?_ _
    · exact (Quiet.refl p).respond _
    · exact passive
  | expired | written => exact (Quiet.refl p).respond _

theorem uartRead_quiet (os : Os β) (timeout : Int) :
    Yields (Quiet p) (p.uartRead os timeout) := by
  refine (uartRead_yields os timeout p).mono fun q ends => ?_
  cases ends with
  | active | data => exact (Quiet.refl p).respond _
  | later =>
    unfold readLater
    split
    · exact (Quiet.refl p).respond _
    · exact .refl p
  | broke =>
    refine Quiet.uartCloseOnError ?_ ?_ _
    · exact (Quiet.refl p).respond _
    · exact passive

theorem processWrite_quiet (os : Os β) : Yields (Quiet p) (p.processWrite os) := by
  unfold processWrite
  split
  · next data _ =>
    refine (continueInProgressWrite_cases os data p).yields.mono fun q ends => ?_
    cases ends with
    | written => exact (Quiet.refl p).respond _
    | short | refused =>
      refine Quiet.checkWriteDeadline ?_ os
      exact .refl p
    | broke =>
      refine Quiet.uartCloseOnError ?_ ?_ _
      · exact (Quiet.refl p).respond _
      · exact passive
  · exact .refl p

theorem processRead_quiet (os : Os β) : Yields (Quiet p) (p.processRead os) := by
  refine (processRead_cases os p).yields.mono fun q ends => ?_
  cases ends with
  | notified active => exact absurd active (by simp [passive])
  | data | expired => exact (Quiet.refl p).respond _
  | refused => exact .refl p
  | ended | broke =>
    refine Quiet.readFailed ?_ ?_ _
    · exact .refl p
    · exact passive

end

theorem uartProcess_quiet {p : Program β} (passive : p.uart.activeModeEnabled = false)
    (os : Os β) : Yields (Quiet p) (p.uartProcess os) := by
  unfold uartProcess
  split
  · exact .refl p
  · next fd isOpen =>
    have stays : Yields (fun q => q.uart.activeModeEnabled = false ∧ Quiet p q)
        (p.processWrite os) := by
      have quiet := processWrite_quiet passive os
      have ends := processWrite_ends os p
      revert quiet ends
      cases p.processWrite os with
      | error => exact fun _ _ => trivial
      | ok q => exact fun quiet ends => ⟨ends.1.steady.mode.trans passive, quiet⟩
    refine stays.bind fun q ⟨passive, quiet⟩ => ?_
    split
    · refine (processRead_quiet passive os).mono fun r again => ?_
      exact Eq.trans again quiet
    · exact quiet

/-- **In passive mode** nobody is notified. -/
theorem handle_passive {p q : Program β} {e : Event β} (h : p.handle e = .ok q)
    (passive : p.uart.activeModeEnabled = false) : notifs q.out = [] := by
  have entered : ∀ {os : Os β}, Quiet (p.enter os) q → notifs q.out = [] := fun quiet => quiet
  cases e with
  | process os =>
    have quiet := uartProcess_quiet (p := p.enter os) passive os
    rw [show (p.enter os).uartProcess os = .ok q from h] at quiet
    exact entered quiet
  | request os command =>
    have refused : Quiet (p.enter os) ((p.enter os).sendErrorResponse .ebadf) :=
      (Quiet.refl _).respond _
    have passive : (p.enter os).uart.activeModeEnabled = false := passive
    have quiet : Yields (Quiet (p.enter os)) ((p.enter os).handleElixirRequest os command) := by
      cases command with
      | write data timeout =>
        rw [handleElixirRequest, handleWrite]
        refine whenOpen_yields refused fun _ => yields_bind _ fun t => ?_
        exact uartWrite_quiet passive os data t
      | read timeout =>
        rw [handleElixirRequest, handleRead]
        refine whenOpen_yields refused fun _ => yields_bind _ fun t => ?_
        exact uartRead_quiet passive os t
      | _ => exact handleElixirRequest_quiet os _ (by simp) (by simp)
    rw [show (p.enter os).handleElixirRequest os command = .ok q from h] at quiet
    exact entered quiet

/-- **In active mode** no response carries data. -/
theorem handle_active {p q : Program β} {e : Event β} (h : p.handle e = .ok q)
    (active : p.uart.activeModeEnabled = true) (idle : p.uart.readPending = false) :
    q.responded = [] := by
  by_cases reads : ∃ os timeout, e = .request os (.read timeout)
  · obtain ⟨os, timeout, rfl⟩ := reads
    have refused : Yields (fun q => q.responded = [])
        ((p.enter os).handleRead os timeout) := by
      refine whenOpen_yields rfl fun _ => yields_bind _ fun t => ?_
      refine (uartRead_yields os t (p.enter os)).mono fun q ends => ?_
      cases ends with
      | active => rfl
      | data passive | later passive | broke passive =>
        exact absurd (passive.symm.trans active) (by simp)
    rw [show (p.enter os).handleRead os timeout = .ok q from h] at refused
    exact refused
  · exact (handle_notRead h (fun os timeout same => reads ⟨os, timeout, same⟩) idle).2

end Program

namespace Server

/-! ## The calls and what they ask for -/

/-- The calls that leave the mode as it is. -/
def Call.keepsMode : Call → Bool
  | .open _ _ | .close | .configure _ => false
  | _ => true

end Server

/-- The requests that leave the mode as it is. -/
def Command.keepsMode : Command → Bool
  | .open _ _ | .close | .configure _ => false
  | _ => true

namespace Server

theorem Asks.keepsMode {s : State β} {clock : Int} {call : Call} {command : Command}
    {cont : Cont β} (asks : Asks s clock call command cont) (keeps : call.keepsMode = true) :
    command.keepsMode = true := by
  cases asks with
  | «open» | close => exact absurd keeps (by simp [Call.keepsMode])
  | _ => rfl

/-- What waits with such a request neither opens nor closes. -/
theorem Pending.Fits.keepsMode {p : Pending β} (fits : p.Fits)
    (keeps : p.command.keepsMode = true) :
    p.cont ≠ .closing ∧ ∀ name opts, p.cont ≠ .opening name opts := by
  unfold Pending.Fits at fits
  split at fits
  · next asked =>
    rw [asked] at keeps
    exact absurd keeps (by simp [Command.keepsMode])
  · next asked =>
    rw [asked] at keeps
    exact absurd keeps (by simp [Command.keepsMode])
  · obtain ⟨callTime, cont⟩ := fits
    exact ⟨by simp [cont], by simp [cont]⟩
  · exact ⟨fits.2.1, fits.1⟩

/-- What a turn in one mode takes. -/
structure Taken.KeepsMode (taken : Taken β) : Prop where
  call : ∀ pid call, taken = .message (.call pid call) → call.keepsMode = true
  response : ∀ p r, taken = .response p r → p.Fits ∧ p.command.keepsMode = true

section

variable [Octet β] {s : State β} {timers : Timers} {taken : Taken β} {ran : Ran β}
  (goes : Turn s timers taken ran) (keeps : taken.KeepsMode)

include goes keeps

/-- **A turn** leaves the mode, -/
theorem Turn.isActive : ran.state.isActive = s.isActive := by
  cases goes with
  | configure => exact absurd (keeps.call _ _ rfl) (by simp [Call.keepsMode])
  | timedOut =>
    simp only [handleTimedOut, notifyTimedoutMessages_state]
  | opened cont =>
    obtain ⟨fits, mode⟩ := keeps.response _ _ rfl
    exact absurd cont ((fits.keepsMode mode).2 _ _)
  | closed cont =>
    obtain ⟨fits, mode⟩ := keeps.response _ _ rfl
    exact absurd cont (fits.keepsMode mode).1
  | notified | readData => simp [replyWith, afterData]
  | readMore =>
    unfold handleRead
    split <;> simp [replyWith, callPort, afterData]
  | _ => rfl

/-- and asks for nothing that would change it. -/
theorem Turn.waitsInMode {p : Pending β} (waits : ran.pending = some p) :
    p.command.keepsMode = true := by
  cases goes with
  | ask asks =>
    obtain rfl := Option.some.inj waits
    exact asks.keepsMode (keeps.call _ _ rfl)
  | configure => exact absurd (keeps.call _ _ rfl) (by simp [Call.keepsMode])
  | flush =>
    obtain rfl := Option.some.inj waits
    rfl
  | readMore =>
    unfold handleRead at waits
    split at waits
    · exact absurd waits (by simp [replyWith])
    · obtain rfl := Option.some.inj waits
      rfl
  | _ => exact absurd waits (by simp [replyWith, resumeOpening, resumeClosing, handleTimedOut])

/-- In active mode nothing is queued while no response carries data. -/
theorem Turn.unqueued (active : s.isActive = true) (queue : s.queuedMessages = [])
    (empty : ∀ p r, taken = .response p r → r.bytes = []) : ran.state.queuedMessages = [] := by
  cases goes with
  | readQueued some => exact absurd (queue.symm.trans some) (by simp)
  | configure => exact absurd (keeps.call _ _ rfl) (by simp [Call.keepsMode])
  | flush =>
    unfold handleFlush callPort
    split <;> simp [queue]
  | notified => simpa [afterData] using queue
  | timedOut => simp [handleTimedOut, notifyTimedoutMessages_state, queue, active]
  | opened cont =>
    obtain ⟨fits, mode⟩ := keeps.response _ _ rfl
    exact absurd cont ((fits.keepsMode mode).2 _ _)
  | closed cont =>
    obtain ⟨fits, mode⟩ := keeps.response _ _ rfl
    exact absurd cont (fits.keepsMode mode).1
  | readData _ ne | readMore _ ne => exact absurd (empty _ _ rfl) ne
  | _ => exact queue

end

end Server

namespace System

/-! ## Both processes -/

/-- Only calls that keep the mode are made. -/
def Event.keepsMode : Event β → Bool
  | .call _ c => c.keepsMode
  | _ => true

/-- Both processes are in the mode `active`, and stay there. -/
structure InMode (active : Bool) (σ : System β) : Prop where
  aligned : Aligned σ
  server : σ.server.state.isActive = active
  program : σ.program.uart.activeModeEnabled = active
  calls : ∀ pid call, .call pid call ∈ σ.server.mailbox → call.keepsMode = true
  waits : ∀ p, σ.server.pending = some p → p.command.keepsMode = true
  silent : active = false → ∀ n, .notif n ∉ σ.incoming
  queue : active = true → σ.server.state.queuedMessages = []
  empty : active = true → ∀ r ∈ responses σ.incoming, r.bytes = []

variable {active : Bool} {σ σ' : System β} {e : Event β} {out : List (Label β)}

/-- What a turn takes is about. -/
theorem mem_incoming_of_next {m : Msg β} {rest : List (Msg β)}
    (next : Server.next σ.server = some (.message m, rest)) :
    m ∈ σ.server.mailbox ∧ m ∈ σ.incoming := by
  rcases next_eq_some next with ⟨m', same, -, mailbox⟩ | ⟨p, r, _, _, same, -⟩
  · obtain rfl := Taken.message.inj same
    have inside : m ∈ σ.server.mailbox := by
      rw [mailbox]
      exact List.mem_cons_self
    exact ⟨inside, List.mem_append_left _ inside⟩
  · exact absurd same (by simp)

/-- **In one mode every turn is in turn.** -/
theorem InMode.inTurn [Octet β] (M : InMode active σ) (e : Event β) : InTurn σ e := by
  cases e with
  | turn now clock =>
    cases next : Server.next σ.server with
    | none => simp only [InTurn, next]
    | some result =>
      obtain ⟨taken, rest⟩ := result
      simp only [InTurn, next]
      refine ⟨fun overtakes => ?_, fun jumps => ?_⟩
      · cases taken with
        | response p r => exact overtakes
        | message m =>
          cases m with
          | notif n =>
            cases n with
            | error reason => exact overtakes
            | data data =>
              cases active with
              | false => exact M.silent rfl _ (mem_incoming_of_next next).2
              | true => exact overtakes.1 (M.queue rfl)
          | rxFramingTimedOut tref =>
            exact overtakes.1 (M.queue (M.server.symm.trans overtakes.2.1))
          | call | resp => exact overtakes
      · cases taken with
        | message m => exact jumps
        | response p r =>
          obtain ⟨some, front⟩ := jumps
          obtain ⟨-, about⟩ := mem_responses_of_next next
          cases active with
          | true => exact some (M.empty rfl r about)
          | false =>
            -- a response and the calls and timers in front of it carry no notification
            obtain ⟨before, m, after, mailbox, -, none, -, -, -, takes⟩ := M.aligned.next next
            obtain ⟨same, -⟩ | ⟨_, _, -, rfl⟩ := takes
            · exact absurd same (by simp)
            · rw [mailbox, ahead_eq none] at front
              refine front (List.flatMap_eq_nil_iff.mpr fun m inside => ?_)
              cases m with
              | notif n =>
                refine absurd ?_ (M.silent rfl n)
                exact List.mem_append_left _ (mailbox ▸ List.mem_append_left _ inside)
              | resp r' => exact absurd inside (none r')
              | call | rxFramingTimedOut => rfl
  | _ => trivial

/-- A message has come that is neither a notification nor a response. -/
theorem InMode.arrived (M : InMode active σ) {m : Msg β} (aligned : Aligned σ')
    (program : σ'.program = σ.program) (state : σ'.server.state = σ.server.state)
    (pending : σ'.server.pending = σ.server.pending)
    (mailbox : σ'.server.mailbox = σ.server.mailbox ++ [m]) (stdout : σ'.stdout = σ.stdout)
    (notif : ∀ n, m ≠ .notif n) (resp : ∀ r, m ≠ .resp r)
    (call : ∀ pid call, m = .call pid call → call.keepsMode = true) : InMode active σ' := by
  have about : ∀ m', m' ∈ σ'.incoming → m' = m ∨ m' ∈ σ.incoming := fun m' inside => by
    rw [incoming, mailbox, stdout] at inside
    simp only [List.mem_append, List.mem_singleton] at inside
    rcases inside with (before | here) | later
    · exact .inr (List.mem_append_left _ before)
    · exact .inl here
    · exact .inr (List.mem_append_right _ later)
  have quiet : responses σ'.incoming = responses σ.incoming := by
    rw [incoming, mailbox, stdout]
    exact responses_arrived resp
  refine ⟨aligned, state ▸ M.server, program ▸ M.program, fun pid c inside => ?_,
    pending ▸ M.waits, fun passive n inside => ?_, state ▸ M.queue, quiet ▸ M.empty⟩
  · rw [mailbox, List.mem_append, List.mem_singleton] at inside
    rcases inside with before | here
    · exact M.calls pid c before
    · exact call pid c here.symm
  · rcases about _ inside with here | before
    · exact notif n here.symm
    · exact M.silent passive n before

/-- The C program has run. -/
theorem InMode.ran (M : InMode active σ) {e : Program.Event β} {q : Program β}
    {stdin : List Command} (handled : σ.program.handle e = .ok q)
    (steady : Program.Steady σ.program q) (aligned : Aligned σ')
    (after : σ' = { σ with
      program := { q with out := [] }, stdin := stdin, stdout := σ.stdout ++ q.out }) :
    InMode active σ' := by
  subst after
  refine ⟨aligned, M.server, steady.mode.trans M.program, M.calls, M.waits,
    fun passive n inside => ?_, M.queue, fun isActive r inside => ?_⟩
  · have inside : .notif n ∈ σ.server.mailbox ++ (σ.stdout ++ q.out).map msg := inside
    rw [incoming_wrote, List.mem_append] at inside
    rcases inside with before | now
    · exact M.silent passive n before
    · have none := Program.handle_passive handled (M.program.trans passive)
      obtain ⟨o, sent, same⟩ := List.mem_map.mp now
      obtain ⟨n', rfl⟩ : ∃ n', o = .notif n' := by
        cases o with
        | notif n' => exact ⟨n', rfl⟩
        | response r => exact absurd same (by simp [msg])
      have told : n' ∈ Program.notifs q.out := List.mem_filterMap.mpr ⟨_, sent, rfl⟩
      rw [none] at told
      exact List.not_mem_nil told
  · have inside : r ∈ responses (σ.server.mailbox ++ (σ.stdout ++ q.out).map msg) := inside
    rw [incoming_wrote, responses_append, List.mem_append, mem_responses_map_msg] at inside
    rcases inside with before | now
    · exact M.empty isActive r before
    · have active := M.program.trans isActive
      have idle : σ.program.uart.readPending = false := by
        cases waits : σ.program.uart.readPending with
        | false => rfl
        | true => exact absurd (active.symm.trans (M.aligned.sound.passive waits)) (by simp)
      have none := Program.handle_active handled active idle
      exact List.flatMap_eq_nil_iff.mp none _ now

variable [Octet β]

/-- **Every step stays in the mode.** -/
theorem step_inMode (M : InMode active σ) (keeps : e.keepsMode = true)
    (took : step σ e = some (σ', out)) : InMode active σ' := by
  have aligned := step_aligned M.aligned took
  cases step_cases took with
  | call fromPid c =>
    refine M.arrived aligned rfl rfl rfl rfl rfl (by simp) (by simp) fun pid c' same => ?_
    obtain ⟨-, rfl⟩ := Msg.call.inj same
    exact keeps
  | expire => exact M.arrived aligned rfl rfl rfl rfl rfl (by simp) (by simp) (by simp)
  | @turn _ _ taken rest ran next goes =>
    have takes : taken.KeepsMode := by
      refine ⟨fun pid c same => ?_, fun p r same => ?_⟩
      · subst same
        exact M.calls pid c (mem_incoming_of_next next).1
      · subst same
        obtain ⟨waits, -⟩ := mem_responses_of_next next
        exact ⟨M.aligned.fits p waits, M.waits p waits⟩
    obtain ⟨before, m, after, mailbox, rfl, -, -, -, none, -⟩ := M.aligned.next next
    have sub : ∀ m', m' ∈ before ++ after → m' ∈ σ.server.mailbox := fun m' inside => by
      rw [mailbox]
      exact (List.mem_append.mp inside).elim (List.mem_append_left _)
        fun later => List.mem_append_right _ (List.mem_cons_of_mem _ later)
    refine ⟨aligned, (goes.isActive takes).trans M.server, M.program,
      fun pid c inside => M.calls pid c (sub _ inside), fun p => goes.waitsInMode takes,
      fun passive n inside => ?_, fun isActive => ?_, fun _ r inside => ?_⟩
    · refine M.silent passive n ?_
      exact (List.mem_append.mp inside).elim (fun inside => List.mem_append_left _ (sub _ inside))
        (List.mem_append_right _)
    · refine goes.unqueued takes (M.server.trans isActive) (M.queue isActive) fun p r same => ?_
      subst same
      exact M.empty isActive r (mem_responses_of_next next).2
    · have inside : r ∈ responses ((before ++ after) ++ σ.stdout.map msg) := inside
      rw [none] at inside
      exact absurd inside List.not_mem_nil
  | @request os command rest q stdin handled =>
    obtain ⟨-, -, -, p, waits, rfl⟩ := M.aligned.asked stdin
    have mode := M.waits p waits
    refine M.ran handled (Program.handle_steady handled ?_ ?_) aligned rfl
    · intro os name opts same
      rw [(Program.Event.request.inj same).2] at mode
      exact absurd mode (by simp [Command.keepsMode])
    · intro os opts same
      rw [(Program.Event.request.inj same).2] at mode
      exact absurd mode (by simp [Command.keepsMode])
  | process handled =>
    exact M.ran handled (Program.handle_steady handled (by simp) (by simp)) aligned rfl
  | deliver stdout =>
    have same := incoming_deliver stdout
    have quiet := congrArg responses same
    refine ⟨aligned, M.server, M.program, fun pid c inside => ?_, M.waits,
      fun passive n inside => M.silent passive n (same ▸ inside), M.queue,
      fun isActive r inside => M.empty isActive r (quiet ▸ inside)⟩
    refine M.calls pid c ((List.mem_append.mp inside).elim id fun here => ?_)
    rename_i o _
    exact absurd (List.mem_singleton.mp here) (by cases o <;> simp [msg])

omit [Octet β] in
/-- Two processes in one mode, and nothing received or asked yet. -/
theorem inMode_init {f₀ : Framer β} (start : Started f₀ σ)
    (agree : σ.server.state.isActive = σ.program.uart.activeModeEnabled) :
    InMode σ.server.state.isActive σ := by
  have incoming : σ.incoming = [] := by simp [System.incoming, start.mailbox, start.stdout]
  refine ⟨Quiet.aligned ⟨start.stdin, start.idle, by rw [incoming]; rfl⟩ start.waits, rfl,
    agree.symm, by simp [start.mailbox], by simp [start.waits], by simp [incoming],
    fun _ => start.queue, ?_⟩
  rw [incoming]
  exact fun _ r inside => absurd inside List.not_mem_nil

end System

end CircuitsUart
