import CircuitsUart.Port.Received

/-!
# What an event leaves alone, and what closes the port

Between an open and the next, a port changes little: the configuration, the device, the mode
and the descriptor stay (`Calm`), but for an error that `read` or `write` reports, after which
the port is closed and, in active mode, a notification sent (`Closed`). Which of the two it is
can be read off the state before and what the operating system answers: `failure` is the
errno.

`failure` is defined beforehand, from results of system calls, and the theorems say that the
program ends `Closed` with exactly that errno, or `Calm`. The other order, in which a failure is
whatever made the program close the port, would be true of any program.

There is one place where neither holds. A pending write that fails in active mode closes the port,
and the same pass of the loop then reads from it; `WriteBreaks` is the condition, and what follows
from it is stated on its own.
-/

set_option autoImplicit false

namespace CircuitsUart

open Port

namespace Program

variable {β : Type}

/-! ## Error notifications -/

/-- The reasons in `{:notif, {:error, reason}}` messages. -/
def errorNotifs (out : List (Out β)) : List Reason :=
  out.filterMap fun
    | .notif (.error reason) => some reason
    | _ => none

@[simp] theorem errorNotifs_nil : errorNotifs ([] : List (Out β)) = [] := rfl

@[simp] theorem errorNotifs_append (a b : List (Out β)) :
    errorNotifs (a ++ b) = errorNotifs a ++ errorNotifs b := List.filterMap_append

@[simp] theorem errorNotifs_response (r : Response β) :
    errorNotifs [Out.response r] = [] := rfl

@[simp] theorem errorNotifs_data (bytes : List β) :
    errorNotifs [Out.notif (.data bytes)] = [] := rfl

theorem errorNotifs_errorNotif {reason : Errno} (real : reason ≠ .zero) :
    errorNotifs [errorNotif (β := β) reason] = [recordLastError reason] := by
  rw [errorNotif, if_neg real]
  rfl

@[simp] theorem errorNotifs_cancelled (p : Program β) : errorNotifs p.cancelled = [] := by
  unfold cancelled
  cases p.uart.writeData.isSome <;> cases p.uart.readPending <;> rfl

/-! ## Calm and closed -/

/-- From `p` to `q` no error was notified, and all that an open or a configure sets is as it
was. -/
structure Calm (p q : Program β) : Prop where
  config : q.currentConfig = p.currentConfig
  tty : q.dev.tty = p.dev.tty
  mode : q.uart.activeModeEnabled = p.uart.activeModeEnabled
  fd : q.uart.fd = p.uart.fd
  silent : errorNotifs q.out = errorNotifs p.out

/-- From `p` to `q` the port was closed because of the error `reason`. -/
structure Closed (p : Program β) (reason : Errno) (q : Program β) : Prop where
  config : q.currentConfig = p.currentConfig
  tty : q.dev.tty = p.dev.tty
  mode : q.uart.activeModeEnabled = p.uart.activeModeEnabled
  fd : q.uart.fd = none
  notified : errorNotifs q.out =
    errorNotifs p.out ++ if p.uart.activeModeEnabled then errorNotifs [errorNotif (β := β) reason] else []

/-- How an operation ends that may meet a failure. -/
def Ends (p : Program β) (failure : Option Errno) (q : Program β) : Prop :=
  match failure with
  | none => Calm p q
  | some reason => Closed p reason q

theorem Calm.refl (p : Program β) : Calm p p := ⟨rfl, rfl, rfl, rfl, rfl⟩

theorem Calm.trans {p q r : Program β} (h : Calm p q) (k : Calm q r) : Calm p r :=
  ⟨k.config.trans h.config, k.tty.trans h.tty, k.mode.trans h.mode, k.fd.trans h.fd,
    k.silent.trans h.silent⟩

/-- A calm beginning does not change how an operation ends. -/
theorem Calm.ends {p q r : Program β} {failure : Option Errno} (h : Calm p q)
    (k : Ends q failure r) : Ends p failure r := by
  cases failure with
  | none => exact h.trans k
  | some reason =>
    exact ⟨k.config.trans h.config, k.tty.trans h.tty, k.mode.trans h.mode, k.fd, by
      rw [k.notified, h.silent, h.mode]⟩

section

variable {p q : Program β} (h : Calm p q)

include h

theorem Calm.withErrno (errno : Errno) : Calm p (q.withErrno errno) :=
  ⟨h.config, h.tty, h.mode, h.fd, h.silent⟩

theorem Calm.record (errno : Errno) : Calm p (q.record errno) :=
  ⟨h.config, h.tty, h.mode, h.fd, h.silent⟩

theorem Calm.recordErrno : Calm p q.recordErrno := h.record q.dev.errno

theorem Calm.send {o : Out β} (noError : errorNotifs [o] = []) : Calm p (q.send o) :=
  ⟨h.config, h.tty, h.mode, h.fd, by rw [Program.send, errorNotifs_append, noError,
    List.append_nil, h.silent]⟩

theorem Calm.handleWriteCompleted (ok : Bool) : Calm p (q.handleWriteCompleted ok) := by
  cases ok <;> exact h.send rfl

theorem Calm.handleReadCompleted (data : Option (List β)) : Calm p (q.handleReadCompleted data) := by
  cases data <;> exact h.send rfl

theorem Calm.writeDone (ok : Bool) : Calm p (q.writeDone ok) := by
  have gone : Calm p { q with uart := { q.uart with writeData := none } } :=
    ⟨h.config, h.tty, h.mode, h.fd, h.silent⟩
  exact gone.handleWriteCompleted ok

theorem Calm.readDone (data : Option (List β)) : Calm p (q.readDone data) := by
  have gone : Calm p { q with uart := { q.uart with readPending := false } } :=
    ⟨h.config, h.tty, h.mode, h.fd, h.silent⟩
  exact gone.handleReadCompleted data

theorem Calm.checkWriteDeadline (os : Os β) : Calm p (q.checkWriteDeadline os) := by
  unfold Program.checkWriteDeadline
  split
  · exact (h.record .eagain).writeDone false
  · exact h

end

theorem calm_cancelWrite (p : Program β) : Calm p p.cancelWrite := by
  unfold cancelWrite
  split
  · have sent := ((Calm.refl p).record .ecanceled).handleWriteCompleted false
    exact ⟨sent.config, sent.tty, sent.mode, sent.fd, sent.silent⟩
  · exact .refl p

theorem calm_cancelRead (p : Program β) : Calm p p.cancelRead := by
  unfold cancelRead
  split
  · have sent := ((Calm.refl p).record .ecanceled).handleReadCompleted none
    exact ⟨sent.config, sent.tty, sent.mode, sent.fd, sent.silent⟩
  · exact .refl p

theorem uartClose_keeps (p : Program β) :
    p.uartClose.currentConfig = p.currentConfig ∧ p.uartClose.dev.tty = p.dev.tty := by
  have calm := (calm_cancelWrite p).trans (calm_cancelRead p.cancelWrite)
  exact ⟨calm.config, calm.tty⟩

theorem uartCloseOnError_keeps (p : Program β) (reason : Errno) :
    (p.uartCloseOnError reason).currentConfig = p.currentConfig ∧
      (p.uartCloseOnError reason).dev.tty = p.dev.tty := by
  unfold uartCloseOnError
  dsimp only
  split
  · unfold handleNotifyRead
    split <;> exact uartClose_keeps p
  · exact uartClose_keeps p

/-- **`uart_close_on_error`** closes the port and, in active mode, notifies the reason once. -/
theorem Calm.closed {p q : Program β} (h : Calm p q) (reason : Errno) :
    Closed p reason (q.uartCloseOnError reason) := by
  obtain ⟨config, tty⟩ := uartCloseOnError_keeps q reason
  refine ⟨config.trans h.config, tty.trans h.tty, ?_, by simp, ?_⟩
  · rw [uart_uartCloseOnError]
    exact h.mode
  · rw [out_uartCloseOnError, errorNotifs_append, errorNotifs_append, errorNotifs_cancelled,
      List.append_nil, h.silent, h.mode]
    split <;> rfl

/-! ## What `read` and `write` find -/

theorem retry_fst {α : Type} (errno errno' : Errno) (results : List (Except Errno α)) :
    (retry errno results).map Prod.fst = (retry errno' results).map Prod.fst := by
  induction results generalizing errno errno' with
  | nil => rfl
  | cons r rest ih =>
    rcases r with e | a
    · cases e <;> rfl
    · rfl

/-- What `read` finds, if it returns. -/
def readFinds (os : Os β) (p : Program β) : Option (Except Errno (List β)) :=
  match p.uart.fd with
  | none => some (.error .ebadf)
  | some _ => (retry .zero os.reads).map Prod.fst

/-- What `write` finds; how many bytes it is given is nothing to it. -/
def writeFinds (os : Os β) (p : Program β) : Option (Except Errno Nat) :=
  match p.uart.fd with
  | none => some (.error .ebadf)
  | some _ => (retry .zero os.writes).map Prod.fst

theorem Reads.finds {os : Os β} {p : Program β} {result : Except Errno (List β)} {errno : Errno}
    (reads : Reads os p result errno) : readFinds os p = some result := by
  have returned := reads.returned
  unfold Program.read at returned
  unfold readFinds
  cases hfd : p.uart.fd with
  | none =>
    rw [hfd] at returned
    obtain ⟨rfl, -⟩ := Prod.mk.inj (Except.ok.inj returned)
    rfl
  | some fd =>
    rw [hfd] at returned
    dsimp only at returned ⊢
    rw [retry_fst .zero p.dev.errno]
    cases hretry : retry p.dev.errno os.reads with
    | none =>
      rw [hretry] at returned
      exact absurd returned (by simp)
    | some r =>
      rw [hretry] at returned
      obtain ⟨rfl, -⟩ := Prod.mk.inj (Except.ok.inj returned)
      rfl

/-- What a call returned was found, cut down to the bytes it was given. -/
theorem Writes.finds {os : Os β} {len : Nat} {p : Program β} {result : Except Errno Nat}
    {errno : Errno} (wrote : Writes os len p result errno) :
    ∃ found, writeFinds os p = some found ∧ result = found.map (min len) := by
  have returned := wrote.returned
  unfold Program.write at returned
  unfold writeFinds
  cases hfd : p.uart.fd with
  | none =>
    rw [hfd] at returned
    obtain ⟨rfl, -⟩ := Prod.mk.inj (Except.ok.inj returned)
    exact ⟨_, rfl, rfl⟩
  | some fd =>
    rw [hfd] at returned
    dsimp only at returned ⊢
    rw [retry_fst .zero p.dev.errno]
    cases hretry : retry p.dev.errno os.writes with
    | none =>
      rw [hretry] at returned
      exact absurd returned (by simp)
    | some r =>
      rw [hretry] at returned
      obtain ⟨rfl, -⟩ := Prod.mk.inj (Except.ok.inj returned)
      exact ⟨r.1, rfl, rfl⟩

theorem Writes.finds_error {os : Os β} {len : Nat} {p : Program β} {e errno : Errno}
    (wrote : Writes os len p (.error e) errno) : writeFinds os p = some (.error e) := by
  obtain ⟨found, hfound, same⟩ := wrote.finds
  cases found with
  | ok n => exact absurd same (by simp [Except.map])
  | error e' =>
    obtain rfl := Except.error.inj same
    exact hfound

theorem Writes.finds_ok {os : Os β} {len n : Nat} {p : Program β} {errno : Errno}
    (wrote : Writes os len p (.ok n) errno) : ∃ n', writeFinds os p = some (.ok n') := by
  obtain ⟨found, hfound, same⟩ := wrote.finds
  cases found with
  | ok n' => exact ⟨n', hfound⟩
  | error e => exact absurd same (by simp [Except.map])

/-- An errno that closes the port; `EAGAIN` does not. -/
def fatal (errno : Errno) : Option Errno := if errno = .eagain then none else some errno

theorem fatal_eagain : fatal .eagain = none := if_pos rfl

theorem fatal_of_ne {errno : Errno} (other : errno ≠ .eagain) : fatal errno = some errno :=
  if_neg other

/-- The failure of a new write; without time to wait `EAGAIN` is one. -/
def newWriteFailure (os : Os β) (timeout : Int) (p : Program β) : Option Errno :=
  match writeFinds os p with
  | some (.error errno) => if timeout = 0 then some errno else fatal errno
  | _ => none

/-- The failure of a write that goes on. -/
def writeFailure (os : Os β) (p : Program β) : Option Errno :=
  match writeFinds os p with
  | some (.error errno) => fatal errno
  | _ => none

/-- The failure of a read that begins; it waits at the end of the file. -/
def newReadFailure (os : Os β) (p : Program β) : Option Errno :=
  match readFinds os p with
  | some (.error errno) => fatal errno
  | _ => none

/-- The failure of a read of the main loop. -/
def readFailure (os : Os β) (p : Program β) : Option Errno :=
  match readFinds os p with
  | some (.ok []) => some .eio
  | some (.error errno) => fatal errno
  | _ => none

theorem Writes.writeFailure_error {os : Os β} {len : Nat} {p : Program β} {e errno : Errno}
    (wrote : Writes os len p (.error e) errno) : writeFailure os p = fatal e := by
  rw [writeFailure, wrote.finds_error]

theorem Writes.writeFailure_ok {os : Os β} {len n : Nat} {p : Program β} {errno : Errno}
    (wrote : Writes os len p (.ok n) errno) : writeFailure os p = none := by
  obtain ⟨n', hn⟩ := wrote.finds_ok
  rw [writeFailure, hn]

/-- `read` on a closed port. -/
theorem readFailure_closed (os : Os β) {p : Program β} (closed : p.uart.fd = none) :
    readFailure os p = some .ebadf := by
  simp [readFailure, readFinds, closed, fatal]

theorem readFailure_congr (os : Os β) {p q : Program β} (fd : q.uart.fd = p.uart.fd) :
    readFailure os q = readFailure os p := by
  unfold readFailure readFinds
  rw [fd]

/-! ## How each operation ends -/

theorem uartWrite_ends (os : Os β) (data : List UInt8) (timeout : Int) (p : Program β) :
    Yields (Ends p (newWriteFailure os timeout p)) (p.uartWrite os data timeout) := by
  refine (uartWrite_yields os data timeout p).mono fun q ⟨_, ends⟩ => ?_
  have set := fun errno => (Calm.refl p).withErrno errno
  have later : ∀ errno offset, Calm p ((p.withErrno errno).writeLater os data offset timeout) :=
    fun _ _ => ⟨rfl, rfl, rfl, rfl, rfl⟩
  unfold newWriteFailure
  cases ends with
  | refused wrote some_time =>
    rw [wrote.finds_error]
    dsimp only
    rw [if_neg some_time, fatal_eagain]
    exact later .eagain 0
  | @broke e wrote ended =>
    have failed := ((set e).recordErrno.handleWriteCompleted false).closed e
    rw [wrote.finds_error]
    dsimp only
    split
    · exact failed
    · next some_time =>
      rw [fatal_of_ne fun busy => ended ⟨busy, some_time⟩]
      exact failed
  | short wrote =>
    obtain ⟨n, hn⟩ := wrote.finds_ok
    rw [hn]
    exact later _ _
  | expired wrote =>
    obtain ⟨n, hn⟩ := wrote.finds_ok
    rw [hn]
    exact ((set _).record .eagain).handleWriteCompleted false
  | written wrote =>
    obtain ⟨n, hn⟩ := wrote.finds_ok
    rw [hn]
    exact (set _).handleWriteCompleted true

theorem Calm.checkWriteDeadline_waits (os : Os β) (p : Program β) :
    (p.checkWriteDeadline os).uart.readPending = p.uart.readPending := by
  unfold Program.checkWriteDeadline
  split <;> simp

/-- A pending write leaves a pending read alone, unless it closes the port. -/
theorem continueInProgressWrite_ends (os : Os β) (data : List UInt8) (p : Program β) :
    Yields (fun q => Ends p (writeFailure os p) q ∧
      q.uart.readPending = if (writeFailure os p).isSome then false else p.uart.readPending)
      (p.continueInProgressWrite os data) := by
  refine (continueInProgressWrite_cases os data p).yields.mono fun q ends => ?_
  have set := fun errno => (Calm.refl p).withErrno errno
  cases ends with
  | written wrote =>
    rw [wrote.writeFailure_ok]
    exact ⟨(set _).writeDone true, by simp⟩
  | short wrote =>
    rw [wrote.writeFailure_ok]
    refine ⟨Calm.checkWriteDeadline ?_ os, Calm.checkWriteDeadline_waits os _⟩
    exact ⟨rfl, rfl, rfl, rfl, rfl⟩
  | broke wrote other =>
    rw [wrote.writeFailure_error, fatal_of_ne other]
    exact ⟨((set _).recordErrno.writeDone false).closed _, by simp⟩
  | refused wrote =>
    rw [wrote.writeFailure_error, fatal_eagain]
    exact ⟨(set _).checkWriteDeadline os, Calm.checkWriteDeadline_waits os _⟩

theorem Calm.readLater {p q : Program β} (h : Calm p q) (os : Os β) (timeout : Int) :
    Calm p (readLater os timeout q) := by
  unfold Program.readLater
  split
  · exact h.handleReadCompleted (some [])
  · exact ⟨h.config, h.tty, h.mode, h.fd, h.silent⟩

/-- A read in active mode is refused. -/
theorem uartRead_ends (os : Os β) (timeout : Int) (p : Program β) :
    Yields (Ends p (if p.uart.activeModeEnabled then none else newReadFailure os p))
      (p.uartRead os timeout) := by
  refine (uartRead_yields os timeout p).mono fun q ends => ?_
  have set := fun errno => (Calm.refl p).withErrno errno
  unfold newReadFailure
  cases ends with
  | active isActive =>
    rw [if_pos isActive]
    exact ((Calm.refl p).record .einval).handleReadCompleted none
  | data passive reads =>
    rw [if_neg (by simp [passive]), reads.finds]
    exact (set _).handleReadCompleted _
  | later passive reads nothing =>
    rw [if_neg (by simp [passive]), reads.finds]
    rcases nothing with rfl | rfl
    · exact (set _).readLater os timeout
    · dsimp only
      rw [fatal_eagain]
      exact (set _).readLater os timeout
  | broke passive reads other =>
    rw [if_neg (by simp [passive]), reads.finds]
    dsimp only
    rw [fatal_of_ne other]
    exact ((set _).recordErrno.handleReadCompleted none).closed _

theorem Calm.readFailed {p q : Program β} (h : Calm p q) (reason : Errno) :
    Closed p reason (q.readFailed reason) := by
  unfold Program.readFailed
  dsimp only
  split
  · exact (h.recordErrno.readDone none).closed reason
  · exact h.closed reason

theorem processRead_ends (os : Os β) (p : Program β) :
    Yields (Ends p (readFailure os p)) (p.processRead os) := by
  refine (processRead_cases os p).yields.mono fun q ends => ?_
  have set := fun errno => (Calm.refl p).withErrno errno
  unfold readFailure
  cases ends with
  | @notified b bs _ _ reads =>
    rw [reads.finds]
    exact (set _).send (o := .notif (.data (b :: bs))) rfl
  | data _ reads =>
    rw [reads.finds]
    exact (set _).readDone _
  | ended reads =>
    rw [reads.finds]
    exact (set _).readFailed .eio
  | expired reads =>
    rw [reads.finds]
    dsimp only
    rw [fatal_eagain]
    exact (set _).readDone (some [])
  | refused reads =>
    rw [reads.finds]
    dsimp only
    rw [fatal_eagain]
    exact set _
  | broke reads other =>
    rw [reads.finds]
    dsimp only
    rw [fatal_of_ne other]
    exact (set _).readFailed _

/-! ## One pass of the loop -/

/-- The pending write fails in active mode, so that the pass reads from a closed port. -/
def WriteBreaks (os : Os β) (p : Program β) : Prop :=
  p.uart.fd.isSome = true ∧ p.uart.writeData.isSome = true ∧
    p.uart.activeModeEnabled = true ∧ (writeFailure os p).isSome = true

instance (os : Os β) (p : Program β) : Decidable (WriteBreaks os p) :=
  inferInstanceAs (Decidable (_ ∧ _))

/-- The failure of the pending write, if there is one. -/
def pendingFailure (os : Os β) (p : Program β) : Option Errno :=
  if p.uart.writeData.isSome then writeFailure os p else none

/-- The failure a pass of the loop meets first. -/
def processFailure (os : Os β) (p : Program β) : Option Errno :=
  if p.uart.fd.isSome then
    match pendingFailure os p with
    | some errno => some errno
    | none =>
      if p.uart.activeModeEnabled ∨ p.uart.readPending then readFailure os p else none
  else none

theorem processWrite_ends (os : Os β) (p : Program β) :
    Yields (fun q => Ends p (pendingFailure os p) q ∧
      q.uart.readPending = if (pendingFailure os p).isSome then false else p.uart.readPending)
      (p.processWrite os) := by
  unfold processWrite pendingFailure
  cases p.uart.writeData with
  | none => exact ⟨Calm.refl p, rfl⟩
  | some data => exact continueInProgressWrite_ends os data p

/-- **One pass of the loop** ends with the first failure it meets, unless the write breaks in
active mode. -/
theorem uartProcess_ends {os : Os β} {p : Program β} (sound : ¬ WriteBreaks os p) :
    Yields (Ends p (processFailure os p)) (p.uartProcess os) := by
  unfold uartProcess processFailure
  cases hfd : p.uart.fd with
  | none => exact Calm.refl p
  | some fd =>
    simp only [Option.isSome_some, if_true]
    refine (processWrite_ends os p).bind ?_
    rintro q ⟨ends, waits⟩
    cases hfail : pendingFailure os p with
    | none =>
      rw [hfail] at ends waits
      have calm : Calm p q := ends
      rw [calm.mode, show q.uart.readPending = p.uart.readPending from waits]
      dsimp only
      split
      · rw [← readFailure_congr os calm.fd]
        exact (processRead_ends os q).mono fun r ends => calm.ends ends
      · exact calm
    | some errno =>
      -- the port is closed; in passive mode nothing is read from it
      rw [hfail] at ends waits
      have closed : Closed p errno q := ends
      have passive : p.uart.activeModeEnabled = false := by
        unfold pendingFailure at hfail
        by_contra isActive
        split at hfail
        · next writing => exact sound ⟨by simp [hfd], writing, by simpa using isActive, by simp [hfail]⟩
        · exact absurd hfail (by simp)
      have idle : ¬ (q.uart.activeModeEnabled = true ∨ q.uart.readPending = true) := by
        rw [closed.mode, passive, waits]
        simp
      rw [if_neg idle]
      exact closed

/-- **A write that breaks in active mode** is followed by a read from the closed port: the
failure is notified, and then `EBADF`. -/
theorem uartProcess_breaks {os : Os β} {p : Program β} (breaks : WriteBreaks os p) :
    ∃ errno, processFailure os p = some errno ∧
      Yields (fun q => Closed p errno q ∧ q.uart.activeModeEnabled = true) (p.processWrite os) ∧
      Yields (fun r => ∃ q, Closed p errno q ∧ Closed q .ebadf r) (p.uartProcess os) := by
  obtain ⟨isOpen, writing, isActive, fails⟩ := breaks
  obtain ⟨fd, hfd⟩ := Option.isSome_iff_exists.mp isOpen
  obtain ⟨errno, hfail⟩ := Option.isSome_iff_exists.mp fails
  have hpending : pendingFailure os p = some errno := by
    rw [pendingFailure, if_pos writing, hfail]
  have wrote : Yields (fun q => Closed p errno q ∧ q.uart.activeModeEnabled = true)
      (p.processWrite os) := by
    refine (processWrite_ends os p).mono ?_
    rintro q ⟨ends, -⟩
    rw [hpending] at ends
    exact ⟨ends, ends.mode.trans isActive⟩
  refine ⟨errno, ?_, wrote, ?_⟩
  · rw [processFailure, if_pos isOpen, hpending]
  · unfold uartProcess
    rw [hfd]
    refine wrote.bind ?_
    rintro q ⟨closed, stillActive⟩
    rw [if_pos (.inl stillActive)]
    have again := processRead_ends os q
    rw [readFailure_closed os closed.fd] at again
    exact again.mono fun r closed' => ⟨q, closed, closed'⟩

/-! ## What is set by an open or a configure only -/

/-- From `p` to `q` the configuration, the device and the mode are as they were. -/
structure Steady (p q : Program β) : Prop where
  config : q.currentConfig = p.currentConfig
  tty : q.dev.tty = p.dev.tty
  mode : q.uart.activeModeEnabled = p.uart.activeModeEnabled

theorem Steady.trans {p q r : Program β} (h : Steady p q) (k : Steady q r) : Steady p r :=
  ⟨k.config.trans h.config, k.tty.trans h.tty, k.mode.trans h.mode⟩

theorem Ends.steady {p q : Program β} {failure : Option Errno} (h : Ends p failure q) :
    Steady p q := by
  cases failure with
  | none =>
    have calm : Calm p q := h
    exact ⟨calm.config, calm.tty, calm.mode⟩
  | some reason =>
    have closed : Closed p reason q := h
    exact ⟨closed.config, closed.tty, closed.mode⟩

theorem Replies.steady {p q : Program β} (h : Replies p q) : Steady p q := by
  obtain ⟨p', r, called, -, rfl⟩ := h
  rcases called with rfl | ⟨errno, rfl⟩ <;> exact ⟨rfl, rfl, rfl⟩

theorem shut_steady (p : Program β) : Steady p p.shut := by
  obtain ⟨config, tty⟩ := uartClose_keeps p
  unfold shut
  split
  · refine ⟨config, tty, ?_⟩
    rw [uart_uartClose]
  · exact ⟨rfl, rfl, rfl⟩

theorem handleClose_steady (p : Program β) : Steady p p.handleClose := by
  have steady := p.shut_steady
  exact ⟨steady.config, steady.tty, steady.mode⟩

theorem uartProcess_steady (os : Os β) (p : Program β) :
    Yields (Steady p) (p.uartProcess os) := by
  by_cases breaks : WriteBreaks os p
  · obtain ⟨errno, -, -, broke⟩ := uartProcess_breaks breaks
    refine broke.mono ?_
    rintro r ⟨q, first, second⟩
    have wrote : Ends p (some errno) q := first
    have read : Ends q (some .ebadf) r := second
    exact wrote.steady.trans read.steady
  · exact (uartProcess_ends breaks).mono fun q ends => ends.steady

/-- **Nothing else changes** the configuration, the device or the mode. -/
theorem handle_steady {p q : Program β} {e : Event β} (h : p.handle e = .ok q)
    (notOpen : ∀ os name opts, e ≠ .request os (.open name opts))
    (notConfigure : ∀ os opts, e ≠ .request os (.configure opts)) : Steady p q := by
  have entered : ∀ {os : Os β}, Steady (p.enter os) q → Steady p q :=
    fun steady => ⟨steady.config, steady.tty, steady.mode⟩
  cases e with
  | process os =>
    have steady := uartProcess_steady os (p.enter os)
    rw [show (p.enter os).uartProcess os = .ok q from h] at steady
    exact entered steady
  | request os command =>
    have handled : (p.enter os).handleElixirRequest os command = .ok q := h
    have plain : command.plain = true → Steady p q := fun plain => by
      have replies := handleElixirRequest_plain os plain (p.enter os)
      rw [handled] at replies
      exact entered replies.steady
    have refused : Steady (p.enter os) ((p.enter os).sendErrorResponse .ebadf) := ⟨rfl, rfl, rfl⟩
    cases command with
    | «open» name opts => exact absurd rfl (notOpen os name opts)
    | configure opts => exact absurd rfl (notConfigure os opts)
    | close =>
      obtain rfl := Except.ok.inj handled
      exact entered (handleClose_steady (p.enter os))
    | write data timeout =>
      have steady : Yields (Steady (p.enter os)) ((p.enter os).handleWrite os data timeout) := by
        unfold handleWrite
        refine whenOpen_yields refused fun _ => yields_bind _ fun t => ?_
        exact (uartWrite_ends os data t (p.enter os)).mono fun q ends => ends.steady
      rw [show (p.enter os).handleWrite os data timeout = .ok q from handled] at steady
      exact entered steady
    | read timeout =>
      have steady : Yields (Steady (p.enter os)) ((p.enter os).handleRead os timeout) := by
        unfold handleRead
        refine whenOpen_yields refused fun _ => yields_bind _ fun t => ?_
        exact (uartRead_ends os t (p.enter os)).mono fun q ends => ends.steady
      rw [show (p.enter os).handleRead os timeout = .ok q from handled] at steady
      exact entered steady
    | _ => exact plain rfl

end Program

end CircuitsUart
