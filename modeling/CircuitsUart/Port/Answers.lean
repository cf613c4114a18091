import CircuitsUart.Port.Received

/-!
# What kind of answer a request gets

`Circuits.UART` gives each call a result of its own kind: `:ok`, a binary, a map of signals, a list
of options, or `{:error, reason}`. The C program sends the response when it can, from a handler,
a callback or the main loop; `Serving` is what it keeps in between: what has been sent answers the
request that was made last, and what is pending is of that request.

`Port.Responses` counts responses and does not look at them. This module looks at them and does
not count. The two meet in a run: since the n-th response belongs to the n-th request, and is of
the kind that request may get, no client is ever given the binary of another one's read.

The kinds are those the code sends. They are not in every case what the API's typespecs say, and a
theorem about the typespecs would have to say so there.
-/

set_option autoImplicit false

namespace CircuitsUart

open Port

/-- The responses that a command may get. -/
def Response.Answers {β : Type} : Response β → Command → Prop
  | .ok, .read _ | .ok, .configuration | .ok, .signals => False
  | .ok, _ => True
  | .error _, .configuration => False
  | .error _, _ => True
  | .data _, .read _ => True
  | .data _, _ => False
  | .options _, .configuration => True
  | .options _, _ => False
  | .signals _, .signals => True
  | .signals _, _ => False

namespace Program

variable {β : Type}

/-- What has been sent answers `command`, and so will what is pending. -/
structure Serving (command : Command) (p : Program β) : Prop where
  write : p.uart.writeData.isSome = true → ∃ data timeout, command = .write data timeout
  read : p.uart.readPending = true → ∃ timeout, command = .read timeout
  sent : ∀ r, .response r ∈ p.out → r.Answers command

section

variable {command : Command} {p q : Program β} (h : Serving command p)

include h

/-- Nothing sent, and nothing more pending. -/
theorem Serving.same (out : q.out = p.out)
    (write : q.uart.writeData.isSome = true → p.uart.writeData.isSome = true)
    (read : q.uart.readPending = true → p.uart.readPending = true) : Serving command q :=
  ⟨fun hw => h.write (write hw), fun hr => h.read (read hr), fun r hr => h.sent r (out ▸ hr)⟩

theorem Serving.record (errno : Errno) : Serving command (p.record errno) := h.same rfl id id

theorem Serving.recordErrno : Serving command p.recordErrno := h.same rfl id id

theorem Serving.withErrno (errno : Errno) : Serving command (p.withErrno errno) := h.same rfl id id

theorem Serving.respond {r : Response β} (answers : r.Answers command) :
    Serving command (p.send (.response r)) := by
  refine ⟨h.write, h.read, fun r' hr' => ?_⟩
  rcases List.mem_append.mp hr' with earlier | now
  · exact h.sent r' earlier
  · obtain rfl := Out.response.inj (List.mem_singleton.mp now)
    exact answers

theorem Serving.notify (n : Notification β) : Serving command (p.send (.notif n)) := by
  refine ⟨h.write, h.read, fun r hr => ?_⟩
  rcases List.mem_append.mp hr with earlier | now
  · exact h.sent r earlier
  · exact absurd (List.mem_singleton.mp now) (by simp)

theorem Serving.handleNotifyRead (reason : Errno) (data : List β) :
    Serving command (p.handleNotifyRead reason data) := by
  unfold Program.handleNotifyRead
  split
  · exact h.notify _
  · exact h.notify _

/-- The callback of a write answers a write. -/
theorem Serving.handleWriteCompleted {data : List UInt8} {timeout : Nat}
    (writes : command = .write data timeout) (ok : Bool) :
    Serving command (p.handleWriteCompleted ok) := by
  subst writes
  cases ok <;> exact h.respond trivial

/-- The callback of a read answers a read. -/
theorem Serving.handleReadCompleted {timeout : Nat} (reads : command = .read timeout)
    (answer : Option (List β)) : Serving command (p.handleReadCompleted answer) := by
  subst reads
  cases answer <;> exact h.respond trivial

theorem Serving.writeDone {data : List UInt8} {timeout : Nat}
    (writes : command = .write data timeout) (ok : Bool) : Serving command (p.writeDone ok) := by
  have cleared : Serving command { p with uart := { p.uart with writeData := none } } :=
    h.same rfl (by simp) id
  exact cleared.handleWriteCompleted writes ok

theorem Serving.readDone {timeout : Nat} (reads : command = .read timeout)
    (answer : Option (List β)) : Serving command (p.readDone answer) := by
  have cleared : Serving command { p with uart := { p.uart with readPending := false } } :=
    h.same rfl id (by simp)
  exact cleared.handleReadCompleted reads answer

theorem Serving.cancelWrite : Serving command p.cancelWrite := by
  unfold Program.cancelWrite
  split
  · next under_way =>
    obtain ⟨data, timeout, writes⟩ := h.write under_way
    exact ((h.record .ecanceled).handleWriteCompleted writes false).same rfl (by simp) id
  · exact h

theorem Serving.cancelRead : Serving command p.cancelRead := by
  unfold Program.cancelRead
  split
  · next waits =>
    obtain ⟨timeout, reads⟩ := h.read waits
    exact ((h.record .ecanceled).handleReadCompleted reads none).same rfl id (by simp)
  · exact h

theorem Serving.uartClose : Serving command p.uartClose := h.cancelWrite.cancelRead.same rfl id id

theorem Serving.shut : Serving command p.shut := by
  unfold Program.shut
  split
  · exact h.uartClose
  · exact h

theorem Serving.uartCloseOnError (reason : Errno) :
    Serving command (p.uartCloseOnError reason) := by
  unfold Program.uartCloseOnError
  dsimp only
  split
  · exact (h.uartClose.record reason).handleNotifyRead reason []
  · exact h.uartClose

theorem Serving.checkWriteDeadline (os : Os β) {data : List UInt8} {timeout : Nat}
    (writes : command = .write data timeout) : Serving command (p.checkWriteDeadline os) := by
  unfold Program.checkWriteDeadline
  split
  · exact (h.record .eagain).writeDone writes false
  · exact h

theorem Serving.readFailed (reason : Errno) : Serving command (p.readFailed reason) := by
  unfold Program.readFailed
  dsimp only
  split
  · next waits =>
    obtain ⟨timeout, reads⟩ := h.read waits
    exact (h.recordErrno.readDone reads none).uartCloseOnError reason
  · exact h.uartCloseOnError reason

/-! ## The main loop -/

theorem Serving.processWrite (os : Os β) : Yields (Serving command) (p.processWrite os) := by
  unfold Program.processWrite
  split
  · next data under_way =>
    obtain ⟨_, _, writes⟩ := h.write (by rw [under_way]; rfl)
    refine (continueInProgressWrite_cases os data p).yields.mono fun q ends => ?_
    cases ends with
    | written => exact (h.withErrno _).writeDone writes true
    | short =>
      refine Serving.checkWriteDeadline ?_ os writes
      exact (h.withErrno _).same rfl id id
    | broke => exact ((h.withErrno _).recordErrno.writeDone writes false).uartCloseOnError _
    | refused => exact (h.withErrno _).checkWriteDeadline os writes
  · exact h

theorem Serving.processRead (os : Os β)
    (reads : p.uart.activeModeEnabled = true ∨ p.uart.readPending = true) :
    Yields (Serving command) (p.processRead os) := by
  refine (processRead_cases os p).yields.mono fun q ends => ?_
  cases ends with
  | notified => exact (h.withErrno _).handleNotifyRead .zero _
  | data passive =>
    obtain ⟨timeout, asked⟩ := h.read (reads.resolve_left passive)
    exact (h.withErrno _).readDone asked _
  | ended => exact (h.withErrno _).readFailed .eio
  | expired _ waits =>
    obtain ⟨timeout, asked⟩ := h.read waits
    exact (h.withErrno _).readDone asked _
  | refused => exact h.withErrno _
  | broke => exact (h.withErrno _).readFailed _

theorem Serving.uartProcess (os : Os β) : Yields (Serving command) (p.uartProcess os) := by
  unfold Program.uartProcess
  split
  · exact h
  · refine (h.processWrite os).bind fun q serving => ?_
    split
    · next reads => exact serving.processRead os reads
    · exact serving

end

/-! ## The request handlers -/

theorem Serving.of_idle {command : Command} {p : Program β} (idle : p.pending = false)
    (silent : p.out = []) : Serving command p := by
  obtain ⟨noWrite, noRead⟩ := pending_eq_false.mp idle
  refine ⟨fun hw => absurd hw (by simp [noWrite]), fun hr => absurd hr (by simp [noRead]), ?_⟩
  simp [silent]

section

variable {p : Program β}

theorem Serving.whenOpen {command : Command} (h : Serving command p)
    (fallible : (Response.error .ebadf : Response β).Answers command)
    {go : Program β → Except Stop (Program β)} (goes : Yields (Serving command) (go p)) :
    Yields (Serving command) (p.whenOpen go) := by
  unfold Program.whenOpen
  split
  · exact goes
  · exact h.respond fallible

/-- A call on the descriptor, answered with `:ok` or an error. -/
theorem Serving.call {command : Command} (h : Serving command p) (os : Os β) (site : CallSite)
    (ok : (Response.ok : Response β).Answers command)
    (error : ∀ reason, (Response.error reason : Response β).Answers command) :
    Serving command (Program.respond (p.call os site)) := by
  unfold Program.call
  split
  · next errno _ => exact (h.withErrno errno).recordErrno.respond (error _)
  · exact h.respond ok

/-- Opening begins no write and no read. -/
theorem uartOpen_begins (os : Os β) (name : List UInt8) (config : UartConfig) (p : Program β) :
    (uartOpen os name config p).2.uart.writeData = p.uart.writeData ∧
      (uartOpen os name config p).2.uart.readPending = p.uart.readPending := by
  unfold uartOpen
  split
  · exact ⟨rfl, rfl⟩
  · split
    · exact ⟨rfl, rfl⟩
    · dsimp only
      split <;> exact ⟨rfl, rfl⟩

theorem Opening.serves {os : Os β} {name : List UInt8} {opts : List UartOption} {q : Program β}
    (ways : Opening os name opts p q) (h : Serving (.open name opts) p) :
    Serving (.open name opts) q := by
  have opened : ∀ config,
      Serving (.open name opts) (uartOpen os (cString name) config p.shut).2 := by
    intro config
    obtain ⟨write, read⟩ := uartOpen_begins os (cString name) config p.shut
    refine h.shut.same (out_uartOpen os (cString name) config p.shut) ?_ ?_
    · rw [write]
      exact id
    · rw [read]
      exact id
  cases ways with
  | refused => exact h.respond trivial
  | @failed config q _ _ tried =>
    have serving := opened config
    rw [tried] at serving
    exact serving.respond trivial
  | @opened config q _ _ tried =>
    have serving := opened config
    rw [tried] at serving
    refine Serving.respond (serving.same (out_adopt os config q) ?_ ?_) trivial
    · rw [uart_adopt]
      exact id
    · rw [uart_adopt]
      exact id

theorem Serving.handleConfigure {opts : List UartOption} (h : Serving (.configure opts) p)
    (os : Os β) : Yields (Serving (.configure opts)) (p.handleConfigure os opts) := by
  refine (handleConfigure_cases os opts p).mono fun q configuring => ?_
  have tried : ∀ {config : UartConfig} {ok : Bool} {q : Program β},
      p.uartConfigure os config = .ok (ok, q) → Serving (.configure opts) q := fun tried => by
    obtain ⟨uart, -, out, -⟩ := uartConfigure_eq_ok tried
    refine h.same out ?_ ?_
    · rw [uart]
      exact id
    · rw [uart]
      exact id
  cases configuring with
  | refused => exact h.respond trivial
  | failed _ failed => exact (tried failed).respond trivial
  | @configured config q _ set =>
    refine Serving.respond ((tried set).same (out_adopt os config q) ?_ ?_) trivial
    · rw [uart_adopt]
      exact id
    · rw [uart_adopt]
      exact id

theorem Serving.handleClose (h : Serving .close p) : Serving .close p.handleClose :=
  h.shut.respond trivial

theorem Serving.handleWrite {data : List UInt8} {timeout : Nat}
    (h : Serving (.write data timeout) p) (os : Os β) :
    Yields (Serving (.write data timeout)) (p.handleWrite os data timeout) := by
  refine h.whenOpen trivial (yields_bind _ fun timeout' => ?_)
  refine (uartWrite_yields os data timeout' p).mono fun q ⟨_, ends⟩ => ?_
  have later : ∀ errno offset, Serving (.write data timeout)
      ((p.withErrno errno).writeLater os data offset timeout') := fun errno offset =>
    ⟨fun _ => ⟨data, timeout, rfl⟩, h.read, h.sent⟩
  cases ends with
  | refused => exact later .eagain 0
  | short => exact later _ _
  | broke => exact ((h.withErrno _).recordErrno.handleWriteCompleted rfl false).uartCloseOnError _
  | expired => exact ((h.withErrno _).record .eagain).handleWriteCompleted rfl false
  | written => exact (h.withErrno _).handleWriteCompleted rfl true

theorem Serving.handleRead {timeout : Nat} (h : Serving (.read timeout) p) (os : Os β) :
    Yields (Serving (.read timeout)) (p.handleRead os timeout) := by
  refine h.whenOpen trivial (yields_bind _ fun timeout' => ?_)
  refine (uartRead_yields os timeout' p).mono fun q ends => ?_
  cases ends with
  | active => exact (h.record .einval).handleReadCompleted rfl none
  | data => exact (h.withErrno _).handleReadCompleted rfl _
  | later =>
    unfold readLater
    split
    · exact (h.withErrno _).handleReadCompleted rfl _
    · exact ⟨h.write, fun _ => ⟨timeout, rfl⟩, h.sent⟩
  | broke => exact ((h.withErrno _).recordErrno.handleReadCompleted rfl none).uartCloseOnError _

/-- **A request is answered in its own kind**, by its handler or later. -/
theorem Serving.handleElixirRequest {command : Command} (h : Serving command p) (os : Os β) :
    Yields (Serving command) (p.handleElixirRequest os command) := by
  cases command with
  | «open» name opts => exact (handleOpen_cases os name opts p).serves h
  | configure opts => exact h.handleConfigure os
  | configuration => exact h.respond trivial
  | close => exact h.handleClose
  | write data timeout => exact h.handleWrite os
  | read timeout => exact h.handleRead os
  | drain =>
    rw [Program.handleElixirRequest, handleDrain]
    refine h.whenOpen trivial ?_
    unfold uartDrain
    split
    · trivial
    · exact h.call os .tcdrain trivial fun _ => trivial
  | flush direction =>
    rw [Program.handleElixirRequest, handleFlush]
    refine h.whenOpen trivial ?_
    unfold uartFlush
    split
    · trivial
    · exact h.call os .tcflush trivial fun _ => trivial
  | setRts value =>
    rw [Program.handleElixirRequest, handleSetRts]
    exact h.whenOpen trivial (h.call os .modemSet trivial fun _ => trivial)
  | setDtr value =>
    rw [Program.handleElixirRequest, handleSetDtr]
    exact h.whenOpen trivial (h.call os .modemSet trivial fun _ => trivial)
  | setBreak value =>
    rw [Program.handleElixirRequest, handleSetBreak]
    exact h.whenOpen trivial (h.call os .breakSet trivial fun _ => trivial)
  | signals =>
    rw [Program.handleElixirRequest, handleSignals]
    refine h.whenOpen trivial ?_
    unfold uartGetSignals Program.call
    cases os.fails .modemGet with
    | none => exact h.respond trivial
    | some errno => exact (h.withErrno errno).recordErrno.respond trivial

end

/-- The program between two events, with what was sent gone. -/
theorem Serving.enter {command : Command} {p : Program β} (h : Serving command p) (os : Os β) :
    Serving command (p.enter os) := ⟨h.write, h.read, by simp [Program.enter]⟩

/-- **What the program sends while it handles an event** answers the request of that event, or the
one made last. -/
theorem handle_serves {command : Command} {p q : Program β} {e : Event β} (h : p.handle e = .ok q)
    (last : ∀ os, e = .process os → Serving command p)
    (request : ∀ os c, e = .request os c → c = command ∧ p.pending = false) :
    Serving command q := by
  cases e with
  | request os c =>
    obtain ⟨rfl, idle⟩ := request os c rfl
    have start : Serving c (p.enter os) := .of_idle idle rfl
    have serving := start.handleElixirRequest os
    rw [show (p.enter os).handleElixirRequest os c = .ok q from h] at serving
    exact serving
  | process os =>
    have serving := ((last os rfl).enter os).uartProcess os
    rw [show (p.enter os).uartProcess os = .ok q from h] at serving
    exact serving

end Program

end CircuitsUart
