import CircuitsUart.Port.Transfer

/-!
# One response for each request

A response is sent by a handler, by a callback of `uart.c`, from the main loop or while a
port is closed. `owed` counts them all in one number: the responses sent, and one more while
a write or a read is pending. Every handler adds one to it, and `uart_process` leaves it.

That a write and a read are never pending together is part of `Sound`, and it is what makes one
number enough. It rests on the GenServer, which sends a request only when it has had the answer to
the last one: `OneAtATime` is that condition on a run, a guard on the history.

`Answered` and `Kept` are the two things a function can do to the count. They compose, so each
handler is a short chain of them, and only `handle_matched` speaks of requests.
-/

set_option autoImplicit false

namespace CircuitsUart

open Port

namespace Program

variable {β : Type}

/-- A write or a read is pending. -/
def pending (p : Program β) : Bool := p.uart.writeData.isSome || p.uart.readPending

def isResponse : Out β → Bool
  | .response _ => true
  | .notif _ => false

/-- The responses sent. -/
def answers (p : Program β) : Nat := p.out.countP isResponse

/-- The responses sent, and the one that is still to come. -/
def owed (p : Program β) : Nat := p.answers + p.pending.toNat

/-- Not both are pending, what is pending needs the port, and a read needs passive mode. -/
structure Sound (p : Program β) : Prop where
  one : p.uart.writeData.isSome = true → p.uart.readPending = false
  isOpen : p.pending = true → p.uart.fd.isSome = true
  passive : p.uart.readPending = true → p.uart.activeModeEnabled = false

/-! ## What sending and recording change -/

@[simp] theorem uart_record (p : Program β) (errno : Errno) : (p.record errno).uart = p.uart := rfl

@[simp] theorem answers_record (p : Program β) (errno : Errno) :
    (p.record errno).answers = p.answers := rfl

@[simp] theorem uart_recordErrno (p : Program β) : p.recordErrno.uart = p.uart := rfl

@[simp] theorem answers_recordErrno (p : Program β) : p.recordErrno.answers = p.answers := rfl

@[simp] theorem uart_send (p : Program β) (o : Out β) : (p.send o).uart = p.uart := rfl

@[simp] theorem answers_send (p : Program β) (o : Out β) :
    (p.send o).answers = p.answers + (isResponse o).toNat := by
  unfold answers send
  rw [List.countP_append, List.countP_singleton]
  cases isResponse o <;> rfl

@[simp] theorem uart_handleWriteCompleted (p : Program β) (ok : Bool) :
    (p.handleWriteCompleted ok).uart = p.uart := by
  cases ok <;> rfl

@[simp] theorem answers_handleWriteCompleted (p : Program β) (ok : Bool) :
    (p.handleWriteCompleted ok).answers = p.answers + 1 := by
  cases ok <;> exact answers_send p _

@[simp] theorem uart_handleReadCompleted (p : Program β) (data : Option (List β)) :
    (p.handleReadCompleted data).uart = p.uart := by
  cases data <;> rfl

@[simp] theorem answers_handleReadCompleted (p : Program β) (data : Option (List β)) :
    (p.handleReadCompleted data).answers = p.answers + 1 := by
  cases data <;> exact answers_send p _

@[simp] theorem uart_handleNotifyRead (p : Program β) (reason : Errno) (data : List β) :
    (p.handleNotifyRead reason data).uart = p.uart := by
  unfold handleNotifyRead
  split <;> rfl

@[simp] theorem answers_handleNotifyRead (p : Program β) (reason : Errno) (data : List β) :
    (p.handleNotifyRead reason data).answers = p.answers := by
  unfold handleNotifyRead
  split <;> exact answers_send p _

/-! ## Closing -/

theorem cancelWrite_uart (p : Program β) :
    p.cancelWrite.uart = { p.uart with writeData := none } := by
  unfold cancelWrite
  split
  · simp
  · next hw => rw [← Option.not_isSome_iff_eq_none.mp hw]

theorem cancelRead_uart (p : Program β) :
    p.cancelRead.uart = { p.uart with readPending := false } := by
  unfold cancelRead
  split
  · simp
  · next hr =>
    have idle : p.uart.readPending = false := by simpa using hr
    rw [← idle]

theorem cancelWrite_answers (p : Program β) :
    p.cancelWrite.answers = p.answers + p.uart.writeData.isSome.toNat := by
  unfold cancelWrite
  split
  · next hw =>
    rw [hw]
    exact answers_handleWriteCompleted (p.record .ecanceled) false
  · next hw => simp [hw]

theorem cancelRead_answers (p : Program β) :
    p.cancelRead.answers = p.answers + p.uart.readPending.toNat := by
  unfold cancelRead
  split
  · next hr =>
    rw [hr]
    exact answers_handleReadCompleted (p.record .ecanceled) none
  · next hr => simp [hr]

/-- A closed port has nothing pending. -/
@[simp] theorem uart_uartClose (p : Program β) : p.uartClose.uart =
    { p.uart with fd := none, writeData := none, readPending := false } := by
  have : p.uartClose.uart = { p.cancelWrite.cancelRead.uart with fd := none } := rfl
  rw [this, cancelRead_uart, cancelWrite_uart]

/-- What was pending is answered. -/
theorem answers_uartClose (p : Program β) : p.uartClose.answers =
    p.answers + p.uart.writeData.isSome.toNat + p.uart.readPending.toNat := by
  have : p.uartClose.answers = p.cancelWrite.cancelRead.answers := rfl
  rw [this, cancelRead_answers, cancelWrite_answers, cancelWrite_uart]

@[simp] theorem uart_uartCloseOnError (p : Program β) (reason : Errno) :
    (p.uartCloseOnError reason).uart =
      { p.uart with fd := none, writeData := none, readPending := false } := by
  unfold uartCloseOnError
  dsimp only
  split <;> simp

theorem answers_uartCloseOnError (p : Program β) (reason : Errno) :
    (p.uartCloseOnError reason).answers =
      p.answers + p.uart.writeData.isSome.toNat + p.uart.readPending.toNat := by
  unfold uartCloseOnError
  dsimp only
  split
  · rw [answers_handleNotifyRead, answers_record, answers_uartClose]
  · exact answers_uartClose p

/-- What closing a port sends: the answers to what was pending. -/
def cancelled (p : Program β) : List (Out β) :=
  (if p.uart.writeData.isSome then [.response (.error .ecanceled)] else []) ++
    if p.uart.readPending then [.response (.error .ecanceled)] else []

/-- What `handle_notify_read` sends for an error. -/
def errorNotif (reason : Errno) : Out β :=
  .notif (if reason = .zero then .data [] else .error (recordLastError reason))

theorem out_uartClose (p : Program β) : p.uartClose.out = p.out ++ p.cancelled := by
  have write : p.cancelWrite.out = p.out ++
      if p.uart.writeData.isSome then [.response (.error .ecanceled)] else [] := by
    unfold cancelWrite
    split
    · rfl
    · exact (List.append_nil _).symm
  have read : p.cancelWrite.cancelRead.out = p.cancelWrite.out ++
      if p.cancelWrite.uart.readPending then [.response (.error .ecanceled)] else [] := by
    unfold cancelRead
    split
    · rfl
    · exact (List.append_nil _).symm
  rw [show p.uartClose.out = p.cancelWrite.cancelRead.out from rfl, read, write, cancelWrite_uart,
    cancelled, List.append_assoc]

/-- **What `uart_close_on_error` sends**: the answers to what was pending, and in active mode
the notification. -/
theorem out_uartCloseOnError (p : Program β) (reason : Errno) :
    (p.uartCloseOnError reason).out =
      p.out ++ p.cancelled ++ if p.uart.activeModeEnabled then [errorNotif reason] else [] := by
  unfold uartCloseOnError
  dsimp only
  rw [uart_uartClose]
  split
  · rw [← out_uartClose, handleNotifyRead, errorNotif]
    split <;> rfl
  · rw [out_uartClose, List.append_nil]

theorem shut_fd (p : Program β) : p.shut.uart.fd = none := by
  unfold shut
  split
  · rw [uart_uartClose]
  · next closed => exact Option.not_isSome_iff_eq_none.mp closed

/-! ## Settled programs -/

/-- Nothing is pending. -/
theorem pending_eq_false {p : Program β} :
    p.pending = false ↔ p.uart.writeData = none ∧ p.uart.readPending = false := by
  unfold pending
  cases p.uart.writeData <;> simp

theorem Sound.of_idle {p : Program β} (idle : p.pending = false) : Sound p := by
  obtain ⟨hw, hr⟩ := pending_eq_false.mp idle
  exact ⟨fun _ => hr, fun h => absurd (idle.symm.trans h) (by simp),
    fun h => absurd (hr.symm.trans h) (by simp)⟩

theorem owed_of_idle {p : Program β} (idle : p.pending = false) : p.owed = p.answers := by
  rw [owed, idle]
  rfl

/-- A handler has answered, or will. -/
def Answered (p p' : Program β) : Prop := Sound p' ∧ p'.owed = p.owed + 1

/-- The answer was sent: the program is idle and has one more. -/
theorem Answered.now {p p' : Program β} (idle : p.pending = false) (idle' : p'.pending = false)
    (sent : p'.answers = p.answers + 1) : Answered p p' :=
  ⟨.of_idle idle', by rw [owed_of_idle idle', owed_of_idle idle, sent]⟩

/-- The answer is still to come. -/
theorem Answered.later {p p' : Program β} (idle : p.pending = false) (sound : Sound p')
    (pending' : p'.pending = true) (unsent : p'.answers = p.answers) : Answered p p' :=
  ⟨sound, by rw [owed_of_idle idle, owed, pending', unsent]; rfl⟩

/-! ## Reading and writing -/

@[simp] theorem answers_withErrno (p : Program β) (errno : Errno) :
    (p.withErrno errno).answers = p.answers := rfl

theorem writeLater_answered {p : Program β} (idle : p.pending = false)
    (isOpen : p.uart.fd.isSome = true) (os : Os β) (data : List UInt8) (offset : Nat)
    (timeout : Int) : Answered p (p.writeLater os data offset timeout) := by
  obtain ⟨-, hr⟩ := pending_eq_false.mp idle
  refine .later idle ⟨fun _ => hr, fun _ => isOpen, fun h => ?_⟩ rfl rfl
  exact absurd (hr.symm.trans h) (by simp)

theorem uartWrite_answered {p : Program β} (idle : p.pending = false)
    (isOpen : p.uart.fd.isSome = true) (os : Os β) (data : List UInt8) (timeout : Int) :
    Returns (Answered p) (p.uartWrite os data timeout) := by
  have hidle := pending_eq_false.mp idle
  have later : ∀ errno offset, Answered p ((p.withErrno errno).writeLater os data offset timeout) :=
    fun errno offset =>
      writeLater_answered (p := p.withErrno errno) idle isOpen os data offset timeout
  refine (uartWrite_cases hidle.1 os data timeout).mono fun q ends => ?_
  cases ends with
  | refused => exact later .eagain 0
  | short => exact later _ _
  | broke =>
    apply Answered.now idle
    · simp [pending]
    · simp [answers_uartCloseOnError, hidle]
  | expired =>
    apply Answered.now idle
    · simpa [pending] using hidle
    · simp
  | written =>
    apply Answered.now idle
    · simpa [pending] using hidle
    · simp

theorem readLater_answered {p : Program β} (idle : p.pending = false)
    (isOpen : p.uart.fd.isSome = true) (passive : p.uart.activeModeEnabled = false) (os : Os β)
    (timeout : Int) : Answered p (readLater os timeout p) := by
  obtain ⟨hw, hr⟩ := pending_eq_false.mp idle
  unfold readLater
  split
  · apply Answered.now idle
    · simp [pending, hw, hr]
    · simp
  · refine .later idle ⟨fun h => ?_, fun _ => isOpen, fun _ => passive⟩ ?_ rfl
    · exact absurd h (by simp [hw])
    · simp [pending]

theorem uartRead_answered {p : Program β} (idle : p.pending = false)
    (isOpen : p.uart.fd.isSome = true) (os : Os β) (timeout : Int) :
    Returns (Answered p) (p.uartRead os timeout) := by
  have hidle := pending_eq_false.mp idle
  refine (uartRead_cases hidle.2 os timeout).mono fun q ends => ?_
  cases ends with
  | active =>
    apply Answered.now idle
    · simpa [pending] using hidle
    · simp
  | data =>
    apply Answered.now idle
    · simpa [pending] using hidle
    · simp
  | @later _ errno passive =>
    exact readLater_answered (p := p.withErrno errno) idle isOpen passive os timeout
  | broke =>
    apply Answered.now idle
    · simp [pending]
    · simp [answers_uartCloseOnError, hidle]

/-! ## The main loop -/

/-- No response more or less is owed. -/
def Kept (p p' : Program β) : Prop := Sound p' ∧ p'.owed = p.owed

/-- What was pending has been answered. -/
theorem Kept.answered {p p' : Program β} (pending : p.pending = true) (idle : p'.pending = false)
    (sent : p'.answers = p.answers + 1) : Kept p p' :=
  ⟨.of_idle idle, by rw [owed_of_idle idle, owed, pending, sent]; rfl⟩

/-- The port has been closed. -/
theorem Kept.closed {p p' : Program β} (idle : p'.pending = false)
    (sent : p'.answers = p.answers + p.pending.toNat) : Kept p p' :=
  ⟨.of_idle idle, by rw [owed_of_idle idle, owed, sent]⟩

theorem pending_of_write {p : Program β} {data : List UInt8} (h : p.uart.writeData = some data) :
    p.pending = true := by
  simp [pending, h]

@[simp] theorem uart_writeDone (p : Program β) (ok : Bool) :
    (p.writeDone ok).uart = { p.uart with writeData := none } := by
  simp [writeDone]

@[simp] theorem answers_writeDone (p : Program β) (ok : Bool) :
    (p.writeDone ok).answers = p.answers + 1 :=
  answers_handleWriteCompleted _ ok

@[simp] theorem uart_readDone (p : Program β) (data : Option (List β)) :
    (p.readDone data).uart = { p.uart with readPending := false } := by
  simp [readDone]

@[simp] theorem answers_readDone (p : Program β) (data : Option (List β)) :
    (p.readDone data).answers = p.answers + 1 :=
  answers_handleReadCompleted _ data

theorem continueInProgressWrite_kept {p : Program β} (sound : Sound p) {data : List UInt8}
    (hw : p.uart.writeData = some data) (os : Os β) :
    Returns (Kept p) (p.continueInProgressWrite os data) := by
  have hr : p.uart.readPending = false := sound.one (by simp [hw])
  have pending := pending_of_write hw
  -- whatever the deadline, the write is still owed or has been answered
  have check : ∀ q : Program β, Kept p q → q.uart.readPending = false → q.answers = p.answers →
      Kept p (q.checkWriteDeadline os) := fun q kept hq ha => by
    unfold checkWriteDeadline
    split
    · exact .answered pending (by simp [Program.pending, hq]) (by simp [ha])
    · exact kept
  refine (continueInProgressWrite_cases os data p).mono fun q ends => ?_
  cases ends with
  | written => exact .answered pending (by simp [Program.pending, hr]) (by simp)
  | short => exact check _ ⟨⟨sound.one, sound.isOpen, sound.passive⟩, rfl⟩ hr rfl
  | broke =>
    exact .answered pending (by simp [Program.pending]) (by simp [answers_uartCloseOnError, hr])
  | refused => exact check _ ⟨⟨sound.one, sound.isOpen, sound.passive⟩, rfl⟩ hr rfl

theorem write_none_of_read {p : Program β} (sound : Sound p) (hr : p.uart.readPending = true) :
    p.uart.writeData = none := by
  by_contra hw
  exact absurd (hr.symm.trans (sound.one (Option.isSome_iff_ne_none.mpr hw))) (by simp)

theorem readFailed_kept {p : Program β} (sound : Sound p) (reason : Errno) :
    Kept p (p.readFailed reason) := by
  unfold readFailed
  dsimp only
  apply Kept.closed
  · simp [pending]
  · rw [answers_uartCloseOnError]
    split
    · next hr => simp [pending, hr, write_none_of_read sound hr]
    · next hr => simp [pending, hr]

theorem processRead_kept {p : Program β} (sound : Sound p)
    (reads : p.uart.activeModeEnabled = true ∨ p.uart.readPending = true) (os : Os β) :
    Returns (Kept p) (p.processRead os) := by
  have sound' : ∀ errno, Sound (p.withErrno errno) := fun _ =>
    ⟨sound.one, sound.isOpen, sound.passive⟩
  have done : ∀ errno data, p.uart.readPending = true →
      Kept p ((p.withErrno errno).readDone data) := fun errno data hr => by
    have hw := write_none_of_read sound hr
    exact .answered (by simp [pending, hr]) (by simp [pending, hw]) (by simp)
  have failed : ∀ errno reason, Kept p ((p.withErrno errno).readFailed reason) :=
    fun errno reason => readFailed_kept (sound' errno) reason
  refine (processRead_cases os p).mono fun q ends => ?_
  cases ends with
  | notified =>
    refine ⟨⟨?_, ?_, ?_⟩, ?_⟩
    · simpa using sound.one
    · simpa [pending] using sound.isOpen
    · simpa using sound.passive
    · simp [owed, pending]
  | data passive => exact done _ _ (reads.resolve_left passive)
  | ended => exact failed _ .eio
  | expired _ waits => exact done _ _ waits
  | refused => exact ⟨sound' _, rfl⟩
  | broke => exact failed _ _

theorem processWrite_kept {p : Program β} (sound : Sound p) (os : Os β) :
    Returns (Kept p) (p.processWrite os) := by
  unfold processWrite
  split
  · next data hw => exact continueInProgressWrite_kept sound hw os
  · exact ⟨sound, rfl⟩

theorem uartProcess_kept {p : Program β} (sound : Sound p) (os : Os β) :
    Returns (Kept p) (p.uartProcess os) := by
  unfold uartProcess
  split
  · exact ⟨sound, rfl⟩
  · refine (processWrite_kept sound os).bind fun p' kept => ?_
    split
    · next reads =>
      exact (processRead_kept kept.1 reads os).mono fun p'' kept' =>
        ⟨kept'.1, kept'.2.trans kept.2⟩
    · exact kept

/-- The main loop starts no operation: with nothing pending it answers nothing. -/
theorem uartProcess_idle (os : Os β) {p : Program β} (idle : p.pending = false)
    (unsent : p.out = []) :
    Returns (fun q => q.pending = false ∧ q.answers = 0) (p.uartProcess os) := by
  refine (uartProcess_kept (.of_idle idle) os).mono fun q kept => ?_
  have before : p.owed = 0 := by
    rw [owed_of_idle idle, answers, unsent]
    rfl
  have owed : q.answers + q.pending.toNat = 0 := kept.2.trans before
  obtain ⟨answers, pending⟩ := Nat.add_eq_zero_iff.mp owed
  exact ⟨by simpa using pending, answers⟩

/-! ## The handlers -/

/-- A response on the spot. -/
theorem Answered.send {p q : Program β} (idle : p.pending = false) (idle' : q.pending = false)
    (unsent : q.answers = p.answers) (r : Response β) : Answered p (q.send (.response r)) :=
  .now idle (by simpa [pending] using idle') (by simp [unsent, isResponse])

theorem Answered.respond {p : Program β} (idle : p.pending = false) {r : Bool × Program β}
    (uart : r.2.uart = p.uart) (unsent : r.2.answers = p.answers) : Answered p (respond r) := by
  obtain ⟨ok, q⟩ := r
  have idle' : q.pending = false := by
    unfold pending
    rw [show q.uart = p.uart from uart]
    exact idle
  cases ok with
  | true => exact .send idle idle' unsent .ok
  | false => exact .send idle idle' unsent (.error q.lastError)

theorem idle_congr {p q : Program β} (write : q.uart.writeData = p.uart.writeData)
    (read : q.uart.readPending = p.uart.readPending) : q.pending = p.pending := by
  rw [pending, pending, write, read]

theorem answers_congr {p q : Program β} (out : q.out = p.out) : q.answers = p.answers := by
  rw [answers, answers, out]

/-- Closing a port on which nothing is pending sends nothing. -/
theorem shut_idle {p : Program β} (idle : p.pending = false) :
    p.shut.pending = false ∧ p.shut.out = p.out := by
  obtain ⟨hw, hr⟩ := pending_eq_false.mp idle
  unfold shut
  split
  · refine ⟨?_, ?_⟩
    · rw [pending_eq_false, uart_uartClose]
      exact ⟨rfl, rfl⟩
    · rw [out_uartClose, cancelled, hw, hr]
      exact List.append_nil _
  · exact ⟨idle, rfl⟩

theorem uartOpen_idle {p : Program β} (idle : p.pending = false) (os : Os β) (name : List UInt8)
    (config : UartConfig) : (uartOpen os name config p).2.pending = false := by
  unfold uartOpen
  split
  · exact idle
  · split
    · exact idle
    · dsimp only
      split <;> exact idle

theorem adopt_idle {p : Program β} (idle : p.pending = false) (os : Os β) (config : UartConfig) :
    (p.adopt os config).pending = false := by
  rw [pending, uart_adopt]
  exact idle

/-- An open with nothing pending is answered on the spot. -/
theorem Opening.answered {os : Os β} {name : List UInt8} {opts : List UartOption} {p q : Program β}
    (h : Opening os name opts p q) (idle : p.pending = false) :
    q.pending = false ∧ q.answers = p.answers + 1 := by
  obtain ⟨closed, unsent⟩ := shut_idle idle
  cases h with
  | refused reason unfit => exact ⟨idle, answers_send p _⟩
  | @failed config q short parsed tried =>
    have idle' := uartOpen_idle closed os (cString name) config
    have out := out_uartOpen os (cString name) config p.shut
    rw [tried] at idle' out
    refine ⟨idle', (answers_send q _).trans ?_⟩
    rw [answers_congr (out.trans unsent)]
    rfl
  | @opened config q short parsed tried =>
    have idle' := uartOpen_idle closed os (cString name) config
    have out := out_uartOpen os (cString name) config p.shut
    rw [tried] at idle' out
    refine ⟨adopt_idle idle' os config, (answers_send _ _).trans ?_⟩
    rw [answers_congr ((out_adopt os config q).trans (out.trans unsent))]
    rfl

theorem handleOpen_answered {p : Program β} (idle : p.pending = false) (os : Os β)
    (name : List UInt8) (opts : List UartOption) : Answered p (p.handleOpen os name opts) := by
  obtain ⟨idle', answers⟩ := (handleOpen_cases os name opts p).answered idle
  exact .now idle idle' answers

theorem uartConfigure_idle {p : Program β} (idle : p.pending = false) (os : Os β)
    (config : UartConfig) :
    Returns (fun r => r.2.pending = false ∧ r.2.answers = p.answers) (uartConfigure os config p) := by
  have hidle := pending_eq_false.mp idle
  unfold uartConfigure
  rw [if_neg (by simp [hidle.2])]
  dsimp only
  split
  · exact ⟨idle, rfl⟩
  · split <;> exact ⟨idle, rfl⟩

theorem handleConfigure_answered {p : Program β} (idle : p.pending = false) (os : Os β)
    (opts : List UartOption) :
    Returns (fun q => q.pending = false ∧ q.answers = p.answers + 1) (p.handleConfigure os opts) := by
  unfold handleConfigure
  split
  · exact ⟨idle, answers_send p _⟩
  · next config _ =>
    refine (uartConfigure_idle idle os config).bind ?_
    rintro ⟨ok, q⟩ ⟨qidle, qanswers⟩
    cases ok with
    | true =>
      refine ⟨adopt_idle qidle os config, (answers_send _ _).trans ?_⟩
      rw [answers_congr (out_adopt os config q), qanswers]
      rfl
    | false =>
      refine ⟨qidle, (answers_send q _).trans ?_⟩
      rw [qanswers]
      rfl

theorem handleClose_answered {p : Program β} (idle : p.pending = false) :
    p.handleClose.pending = false ∧ p.handleClose.answers = p.answers + 1 := by
  obtain ⟨closed, unsent⟩ := shut_idle idle
  have ends : p.handleClose = p.shut.sendOkResponse := rfl
  rw [ends]
  refine ⟨closed, (answers_send p.shut _).trans ?_⟩
  rw [answers_congr unsent]
  rfl

theorem whenOpen_answered {p : Program β} (idle : p.pending = false)
    {go : Program β → Except Stop (Program β)}
    (h : p.uart.fd.isSome = true → Returns (Answered p) (go p)) :
    Returns (Answered p) (p.whenOpen go) := by
  unfold whenOpen
  split
  · next isOpen => exact h isOpen
  · exact Answered.send idle idle rfl _

theorem call_answered {p : Program β} (idle : p.pending = false) (os : Os β) (site : CallSite) :
    Answered p (respond (p.call os site)) := by
  unfold call
  split <;> exact .respond idle rfl rfl

theorem decodeTimeout_eq {timeout : Nat} (h : timeout ≤ LONG_MAX) :
    decodeTimeout timeout = .ok (toInt timeout) := by
  have decoded : decodeLong (.int timeout) = some (timeout : Int) := by
    unfold decodeLong
    exact if_pos ⟨by unfold LONG_MIN; omega, h⟩
  unfold decodeTimeout
  rw [decoded]

theorem decodeTimeout_returns {timeout : Nat} (h : timeout ≤ LONG_MAX) :
    Returns (fun _ => True) (decodeTimeout timeout) := by
  rw [decodeTimeout_eq h]
  trivial

/-- **Every handler answers once, or leaves one answer pending.** -/
theorem handleElixirRequest_answered {p : Program β} (idle : p.pending = false) (os : Os β)
    {command : Command} (wf : command.WellFormed) :
    Returns (Answered p) (p.handleElixirRequest os command) := by
  have hidle := pending_eq_false.mp idle
  cases command with
  | «open» name opts => exact handleOpen_answered idle os name opts
  | configure opts =>
    exact (handleConfigure_answered idle os opts).mono fun q answered =>
      .now idle answered.1 answered.2
  | configuration => exact Answered.send idle idle rfl _
  | close =>
    obtain ⟨idle', answers⟩ := handleClose_answered idle
    exact Answered.now idle idle' answers
  | write data timeout =>
    rw [handleElixirRequest, handleWrite]
    refine whenOpen_answered idle fun isOpen => ?_
    exact (decodeTimeout_returns wf).bind fun timeout _ =>
      uartWrite_answered idle isOpen os data timeout
  | read timeout =>
    rw [handleElixirRequest, handleRead]
    refine whenOpen_answered idle fun isOpen => ?_
    exact (decodeTimeout_returns wf).bind fun timeout _ => uartRead_answered idle isOpen os timeout
  | drain =>
    rw [handleElixirRequest, handleDrain]
    refine whenOpen_answered idle fun _ => ?_
    rw [uartDrain, if_neg (by simp [hidle.1])]
    exact call_answered idle os .tcdrain
  | flush direction =>
    rw [handleElixirRequest, handleFlush]
    refine whenOpen_answered idle fun _ => ?_
    rw [uartFlush, if_neg (by simp [hidle.2])]
    exact call_answered idle os .tcflush
  | setRts value =>
    rw [handleElixirRequest, handleSetRts]
    exact whenOpen_answered idle fun _ => call_answered idle os .modemSet
  | setDtr value =>
    rw [handleElixirRequest, handleSetDtr]
    exact whenOpen_answered idle fun _ => call_answered idle os .modemSet
  | setBreak value =>
    rw [handleElixirRequest, handleSetBreak]
    exact whenOpen_answered idle fun _ => call_answered idle os .breakSet
  | signals =>
    rw [handleElixirRequest, handleSignals]
    refine whenOpen_answered idle fun _ => ?_
    unfold uartGetSignals call
    cases os.fails .modemGet with
    | none => exact Answered.send idle idle rfl (.signals (signalsOf os.modemStatus))
    | some errno =>
      exact Answered.send (q := (p.withErrno errno).recordErrno) idle idle rfl (.error _)

/-! ## Runs -/

/-- The requests dispatched. -/
def requests (h : List (Label β)) : Nat :=
  h.countP fun l => match l with
    | .dispatched _ => true
    | .sent _ => false

/-- The `'r'` messages sent. -/
def responses (h : List (Label β)) : Nat :=
  h.countP fun l => match l with
    | .dispatched _ => false
    | .sent o => isResponse o

/-- A request comes only after the last one was answered, and can be decoded. -/
def OneAtATime (h : List (Label β)) (_p : Program β) : Event β → Prop
  | .request _ command => responses h = requests h ∧ command.WellFormed
  | .process _ => True

/-- Every request is answered, but for one that is pending. -/
structure Matched (h : List (Label β)) (p : Program β) : Prop where
  sound : Sound p
  count : responses h + p.pending.toNat = requests h

theorem requests_step (h : List (Label β)) (e : Event β) (q : Program β) :
    requests (h ++ (e.label ++ q.out.map .sent)) =
      requests h + (match e with | .request _ _ => 1 | .process _ => 0) := by
  have sent : (q.out.map (Label.sent (β := β))).countP (fun l => match l with
      | .dispatched _ => true
      | .sent _ => false) = 0 := by
    rw [List.countP_eq_zero]
    intro l hl
    obtain ⟨o, -, rfl⟩ := List.mem_map.mp hl
    simp
  unfold requests
  rw [List.countP_append, List.countP_append, sent]
  cases e <;> rfl

theorem responses_step (h : List (Label β)) (e : Event β) (q : Program β) :
    responses (h ++ (e.label ++ q.out.map .sent)) = responses h + q.answers := by
  have label : e.label.countP (fun l => match l with
      | .dispatched _ => false
      | .sent o => isResponse o) = 0 := by
    cases e <;> rfl
  unfold responses answers
  rw [List.countP_append, List.countP_append, label, List.countP_map]
  simp [Function.comp_def]

/-- A request finds nothing pending. -/
theorem Matched.idle {h : List (Label β)} {p : Program β} (hm : Matched h p) {os : Os β}
    {command : Command} (guard : OneAtATime h p (.request os command)) : p.pending = false := by
  have answered : responses h = requests h := guard.1
  have count := hm.count
  cases hp : p.pending with
  | false => rfl
  | true =>
    rw [hp, Bool.toNat_true] at count
    omega

/-- **A step keeps requests and responses matched.** -/
theorem handle_matched {h : List (Label β)} {p : Program β} {e : Event β} (hm : Matched h p)
    (guard : OneAtATime h p e) :
    Returns (fun q => Matched (h ++ (e.label ++ q.out.map .sent)) { q with out := [] })
      (p.handle e) := by
  have done : ∀ (q₀ q : Program β) (n : Nat), q₀.uart = p.uart → q₀.out = [] → Sound q →
      q.owed = q₀.owed + n → requests h + n = requests (h ++ (e.label ++ q.out.map .sent)) →
      Matched (h ++ (e.label ++ q.out.map .sent)) { q with out := [] } := by
    intro q₀ q n uart out sound owed counted
    refine ⟨⟨sound.one, sound.isOpen, sound.passive⟩, ?_⟩
    have before : q₀.owed = p.pending.toNat := by
      simp [Program.owed, answers, out, pending, uart]
    have after : q.owed = q.answers + q.pending.toNat := rfl
    have count := hm.count
    rw [responses_step, ← counted]
    show responses h + q.answers + q.pending.toNat = _
    omega
  cases e with
  | request os command =>
    refine (handleElixirRequest_answered (p := p.enter os) (hm.idle guard) os guard.2).mono ?_
    rintro q ⟨sound, owed⟩
    exact done (p.enter os) q 1 rfl rfl sound owed (requests_step h (.request os command) q).symm
  | process os =>
    have sound : Sound (p.enter os) := ⟨hm.sound.one, hm.sound.isOpen, hm.sound.passive⟩
    refine (uartProcess_kept sound os).mono ?_
    rintro q ⟨sound, owed⟩
    exact done (p.enter os) q 0 rfl rfl sound owed (requests_step h (.process os) q).symm

theorem step_matched {h : List (Label β)} {p p' : Program β} {e : Event β} {out : List (Label β)}
    (hm : Matched h p) (guard : OneAtATime h p e) (took : step p e = some (p', out)) :
    Matched (h ++ out) p' := by
  obtain ⟨q, hq, rfl, rfl⟩ := step_eq_some took
  have := handle_matched hm guard
  rw [hq] at this
  exact this

theorem matched_of_reach {h : List (Label β)} {p : Program β} (r : Lib.Reach step OneAtATime {} h p) :
    Matched h p := by
  have keep : ∀ (h : List (Label β)) p e p' out, Matched h p → OneAtATime h p e →
      step p e = some (p', out) → Matched (h ++ out) p' :=
    fun _ _ _ _ _ hm guard took => step_matched hm guard took
  exact Lib.Reach.invariant ⟨.of_idle rfl, rfl⟩ keep r

/-- **Exactly one response for each request.** In every run in which a request is sent only
after the last one was answered, the responses sent are the requests dispatched, minus one
exactly while a write or a read is pending; never both are, and only on an open port, a read
only in passive mode; and no `errx` is reached. -/
theorem one_response_per_request {h : List (Label β)} {p : Program β}
    (r : Lib.Reach step OneAtATime {} h p) :
    responses h + p.pending.toNat = requests h ∧
      ¬ (p.uart.writeData.isSome = true ∧ p.uart.readPending = true) ∧
      (p.pending = true → p.uart.fd.isSome = true) ∧
      (p.uart.readPending = true → p.uart.activeModeEnabled = false) ∧
      ∀ e message, OneAtATime h p e → p.handle e ≠ .error (.errx message) := by
  have hm := matched_of_reach r
  refine ⟨hm.count, ?_, hm.sound.isOpen, hm.sound.passive, ?_⟩
  · rintro ⟨hw, hr⟩
    exact absurd (hr.symm.trans (hm.sound.one hw)) (by simp)
  · intro e message guard stopped
    have := handle_matched hm guard
    rw [stopped] at this
    exact this

/-- A port is opened in passive mode and a read finds nothing: one of two requests is
answered. -/
theorem one_response_per_request_pendingRead :
    ∃ (h : List (Label UInt8)) (p : Program UInt8),
      p.pending = true ∧ requests h = 2 ∧ responses h + p.pending.toNat = requests h :=
  have opened := Lib.Reach.step (G := OneAtATime)
    (e := (.request { opened := fun _ => .ok (3, .raw) } (.open ttyS0 [.active false]) : Event UInt8))
    .start ⟨rfl, trivial⟩ rfl
  have reading := opened.step
    (e := (.request { reads := [.error .eagain] } (.read 1000) : Event UInt8)) ⟨rfl, by decide⟩ rfl
  ⟨_, _, rfl, rfl, (one_response_per_request reading).1⟩

end Program

end CircuitsUart
