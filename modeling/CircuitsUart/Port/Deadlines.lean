import CircuitsUart.Port.Poll
import CircuitsUart.Port.Received

/-!
# Deadlines over a run

A pending operation keeps the deadline it was given when it was requested, until it is answered:
`Ages` says so of one operation and of whatever the program does that is not its own request.
So in every state of a run a deadline is that of the last request (`Dated`), and what
`Port.Poll` says of a deadline and a clock is said of what was asked for, and when.

The two operations, a write and a read, are one parameter (`Transfer`). Most functions of the
program deal with one of them and are nothing to the other, so there is one lemma for that
(`Ages.beside`) and one for an operation that is over (`Ages.gone`). `Ages` composes, and a
function that does one thing after another ages the operation by as many steps.
-/

set_option autoImplicit false

namespace CircuitsUart

open Lib Port

/-- The port is as the operation needs it. -/
def Port.Uart.admits (u : Uart) : Transfer → Bool
  | .write => u.fd.isSome
  | .read => u.fd.isSome && !u.activeModeEnabled

namespace Program

variable {β : Type}

/-! ## One operation -/

/-- The operation is pending in both, with one deadline. -/
structure Lasts (op : Transfer) (p q : Program β) : Prop where
  before : p.uart.waits op = true
  after : q.uart.waits op = true
  deadline : q.uart.completionDeadline op = p.uart.completionDeadline op
  admits : p.uart.admits op = true → q.uart.admits op = true

/-- From `p` to `q` the operation was not requested: if it is pending it was, and if it was, it
is or something was answered. -/
structure Ages (op : Transfer) (p q : Program β) : Prop where
  more : p.answers ≤ q.answers
  kept : q.uart.waits op = true → Lasts op p q
  told : p.uart.waits op = true → Lasts op p q ∨ p.answers < q.answers

variable {op : Transfer} {p q r : Program β}

theorem Lasts.trans (h : Lasts op p q) (h' : Lasts op q r) : Lasts op p r where
  before := h.before
  after := h'.after
  deadline := h'.deadline.trans h.deadline
  admits := fun admits => h'.admits (h.admits admits)

namespace Ages

theorem trans (h : Ages op p q) (h' : Ages op q r) : Ages op p r where
  more := h.more.trans h'.more
  kept waits := by
    have last := h'.kept waits
    exact (h.kept last.before).trans last
  told waits := by
    rcases h.told waits with first | answered
    · rcases h'.told first.after with second | answered
      · exact .inl (first.trans second)
      · exact .inr (h.more.trans_lt answered)
    · exact .inr (answered.trans_le h'.more)

/-- The operation is not touched. -/
theorem beside (more : p.answers ≤ q.answers) (waits : q.uart.waits op = p.uart.waits op)
    (deadline : q.uart.completionDeadline op = p.uart.completionDeadline op)
    (admits : q.uart.admits op = p.uart.admits op) : Ages op p q := by
  have lasts : p.uart.waits op = true → Lasts op p q := fun before =>
    ⟨before, waits.trans before, deadline, admits.trans⟩
  exact ⟨more, fun after => lasts (waits.symm.trans after), fun before => .inl (lasts before)⟩

theorem of_uart (uart : q.uart = p.uart) (more : p.answers ≤ q.answers) : Ages op p q :=
  .beside more (by rw [uart]) (by rw [uart]) (by rw [uart])

theorem refl (p : Program β) : Ages op p p := .of_uart rfl le_rfl

/-- The operation is no more, and was answered. -/
theorem gone (idle : q.uart.waits op = false) (more : p.answers ≤ q.answers)
    (sent : p.uart.waits op = true → p.answers < q.answers) : Ages op p q where
  more := more
  kept waits := absurd (idle.symm.trans waits) (by simp)
  told waits := .inr (sent waits)

end Ages

/-! ## What the functions do with a pending operation -/

theorem ages_withErrno (p : Program β) (errno : Errno) : Ages op p (p.withErrno errno) :=
  .of_uart rfl le_rfl

theorem ages_record (p : Program β) (errno : Errno) : Ages op p (p.record errno) :=
  .of_uart rfl le_rfl

theorem ages_recordErrno (p : Program β) : Ages op p p.recordErrno := .of_uart rfl le_rfl

/-- A system call failed, and its errno is kept. -/
theorem ages_failed (p : Program β) (errno : Errno) :
    Ages op p (p.withErrno errno).recordErrno :=
  (ages_withErrno p errno).trans (ages_recordErrno _)

theorem ages_send (p : Program β) (o : Out β) : Ages op p (p.send o) :=
  .of_uart rfl (by rw [answers_send]; omega)

/-- What is pending on a port that is closed is answered. -/
theorem ages_uartClose (p : Program β) : Ages op p p.uartClose := by
  apply Ages.gone
  · cases op <;> simp [Uart.waits]
  · rw [answers_uartClose]
    omega
  · intro waits
    rw [answers_uartClose]
    cases op with
    | write =>
      rw [show p.uart.writeData.isSome = true from waits, Bool.toNat_true]
      omega
    | read =>
      rw [show p.uart.readPending = true from waits, Bool.toNat_true]
      omega

theorem ages_uartCloseOnError (p : Program β) (reason : Errno) :
    Ages op p (p.uartCloseOnError reason) := by
  unfold uartCloseOnError
  dsimp only
  split
  · refine (ages_uartClose p).trans (.of_uart ?_ ?_)
    · simp
    · simp
  · exact ages_uartClose p

theorem ages_writeDone (p : Program β) (ok : Bool) : Ages op p (p.writeDone ok) := by
  cases op with
  | write =>
    refine .gone ?_ ?_ fun _ => ?_
    · simp [Uart.waits]
    all_goals simp
  | read =>
    apply Ages.beside
    · simp
    all_goals simp [Uart.waits, Uart.completionDeadline, Uart.admits]

theorem ages_readDone (p : Program β) (data : Option (List β)) : Ages op p (p.readDone data) := by
  cases op with
  | write =>
    apply Ages.beside
    · simp
    all_goals simp [Uart.waits, Uart.completionDeadline, Uart.admits]
  | read =>
    refine .gone ?_ ?_ fun _ => ?_
    · simp [Uart.waits]
    all_goals simp

theorem ages_checkWriteDeadline (os : Os β) (p : Program β) :
    Ages op p (p.checkWriteDeadline os) := by
  unfold checkWriteDeadline
  split
  · exact (ages_record p .eagain).trans (ages_writeDone _ false)
  · exact .refl p

theorem continueInProgressWrite_ages (os : Os β) (data : List UInt8) (p : Program β) :
    Returns (Ages op p) (p.continueInProgressWrite os data) := by
  refine (continueInProgressWrite_cases os data p).mono fun q ends => ?_
  cases ends with
  | @written errno => exact (ages_withErrno p errno).trans (ages_writeDone _ true)
  | short =>
    refine Ages.trans ?_ (ages_checkWriteDeadline os _)
    apply Ages.beside
    · exact le_rfl
    all_goals cases op <;> rfl
  | @broke e =>
    exact ((ages_failed p e).trans (ages_writeDone _ false)).trans (ages_uartCloseOnError _ e)
  | refused => exact (ages_withErrno p .eagain).trans (ages_checkWriteDeadline os _)

theorem ages_readFailed (p : Program β) (reason : Errno) : Ages op p (p.readFailed reason) := by
  unfold readFailed
  dsimp only
  refine Ages.trans ?_ (ages_uartCloseOnError _ reason)
  split
  · exact (ages_recordErrno p).trans (ages_readDone _ none)
  · exact .refl p

theorem processRead_ages (os : Os β) (p : Program β) : Returns (Ages op p) (p.processRead os) := by
  refine (processRead_cases os p).mono fun q ends => ?_
  have set : ∀ errno, Ages op p (p.withErrno errno) := ages_withErrno p
  cases ends with
  | @notified b bs errno =>
    refine (set errno).trans (.of_uart ?_ ?_)
    · simp
    · simp
  | @data b bs errno => exact (set errno).trans (ages_readDone _ _)
  | @ended errno => exact (set errno).trans (ages_readFailed _ .eio)
  | expired => exact (set .eagain).trans (ages_readDone _ _)
  | refused => exact set .eagain
  | @broke e => exact (set e).trans (ages_readFailed _ e)

theorem processWrite_ages (os : Os β) (p : Program β) :
    Returns (Ages op p) (p.processWrite os) := by
  unfold processWrite
  split
  · exact continueInProgressWrite_ages os _ p
  · exact .refl p

theorem uartProcess_ages (os : Os β) (p : Program β) : Returns (Ages op p) (p.uartProcess os) := by
  unfold uartProcess
  split
  · exact .refl p
  · have wrote : Returns (Ages op p) (p.processWrite os) := processWrite_ages os p
    refine wrote.bind fun p' wrote => ?_
    split
    · exact (processRead_ages os p').mono fun _ => wrote.trans
    · exact wrote

/-! ## Requests -/

theorem ages_shut (p : Program β) : Ages op p p.shut := by
  unfold shut
  split
  · exact ages_uartClose p
  · exact .refl p

/-- What is pending needs an open port, so nothing is once the port was shut. -/
theorem waits_shut (placed : p.uart.waits op = true → p.uart.admits op = true) :
    p.shut.uart.waits op = false := by
  unfold shut
  split
  · cases op <;> simp [Uart.waits]
  · next closed =>
    by_contra waits
    have admits := placed (by simpa using waits)
    have isOpen : p.uart.fd.isSome = true := by
      cases op with
      | write => exact admits
      | read => exact (Bool.and_eq_true_iff.mp admits).1
    exact closed isOpen

theorem waits_uartOpen (os : Os β) (name : List UInt8) (config : UartConfig) (p : Program β) :
    (uartOpen os name config p).2.uart.waits op = p.uart.waits op := by
  unfold uartOpen
  split
  · rfl
  · split
    · cases op <;> rfl
    · dsimp only
      split <;> cases op <;> rfl

theorem Opening.ages {os : Os β} {name : List UInt8} {opts : List UartOption}
    (ways : Opening os name opts p q) (placed : p.uart.waits op = true → p.uart.admits op = true) :
    Ages op p q := by
  have reopened : ∀ {config : UartConfig} {ok : Bool} {q : Program β},
      uartOpen os (cString name) config p.shut = (ok, q) →
      q.uart.waits op = false ∧ p.answers ≤ q.answers := by
    intro config ok q tried
    have waits := @waits_uartOpen _ op os (cString name) config p.shut
    have out := out_uartOpen os (cString name) config p.shut
    rw [tried] at waits out
    have shut : Ages op p p.shut := ages_shut p
    exact ⟨waits.trans (waits_shut placed), shut.more.trans (answers_congr out).ge⟩
  cases ways with
  | refused reason => exact ages_send p _
  | @failed config q short parsed tried =>
    obtain ⟨idle, more⟩ := reopened tried
    have answered : (q.sendErrorResponse q.lastError).answers = q.answers + 1 := answers_send q _
    exact .gone idle (by omega) fun _ => by omega
  | @opened config q short parsed tried =>
    obtain ⟨idle, more⟩ := reopened tried
    have adopted : (q.adopt os config).answers = q.answers := answers_congr (out_adopt os config q)
    have answered : (q.adopt os config).sendOkResponse.answers = (q.adopt os config).answers + 1 :=
      answers_send _ _
    have idle' : (q.adopt os config).sendOkResponse.uart.waits op = false := by
      unfold sendOkResponse
      rw [uart_send, uart_adopt]
      exact idle
    exact .gone idle' (by omega) fun _ => by omega

/-- The mode does not change under a read. -/
theorem uartConfigure_ages {os : Os β} {config : UartConfig} {ok : Bool}
    (h : p.uartConfigure os config = .ok (ok, q)) : Ages op p q := by
  obtain ⟨uart, -, out, -, -⟩ := uartConfigure_eq_ok h
  have same : p.uart.readPending = true → config.active = p.uart.activeModeEnabled := by
    intro waits
    by_contra changed
    unfold uartConfigure at h
    rw [if_pos ⟨changed, waits⟩] at h
    exact absurd h (by simp)
  have lasts : p.uart.waits op = true → Lasts op p q := fun before => by
    cases op with
    | write => exact ⟨before, by rw [uart]; exact before, by rw [uart]; rfl, by rw [uart]; exact id⟩
    | read =>
      have mode : q.uart = p.uart := by rw [uart, same before]
      exact ⟨before, by rw [mode]; exact before, by rw [mode], by rw [mode]; exact id⟩
  refine ⟨(answers_congr out).ge, fun after => lasts ?_, fun before => .inl (lasts before)⟩
  rw [uart] at after
  cases op <;> exact after

theorem handleConfigure_ages (os : Os β) (opts : List UartOption) (p : Program β) :
    Yields (Ages op p) (p.handleConfigure os opts) := by
  refine (handleConfigure_cases os opts p).mono fun q ways => ?_
  cases ways with
  | refused unparsed => exact ages_send p _
  | failed parsed tried => exact (uartConfigure_ages tried).trans (ages_send _ _)
  | @configured config q parsed tried =>
    have adopted : Ages op q (q.adopt os config) :=
      .of_uart (uart_adopt os config q) (answers_congr (out_adopt os config q)).ge
    exact ((uartConfigure_ages tried).trans adopted).trans (ages_send _ _)

theorem handleClose_ages (p : Program β) : Ages op p p.handleClose :=
  (ages_shut p).trans (ages_send p.shut _)

theorem Replies.ages (replies : Replies p q) : Ages op p q := by
  obtain ⟨p', r, rfl | ⟨errno, rfl⟩, -, rfl⟩ := replies
  · exact ages_send p' _
  · exact (ages_failed p errno).trans (ages_send _ _)

theorem ages_handleWriteCompleted (p : Program β) (ok : Bool) :
    Ages op p (p.handleWriteCompleted ok) :=
  .of_uart (by simp) (by simp)

theorem ages_handleReadCompleted (p : Program β) (data : Option (List β)) :
    Ages op p (p.handleReadCompleted data) :=
  .of_uart (by simp) (by simp)

/-- A write is nothing to a pending read. -/
theorem uartWrite_ages (os : Os β) (data : List UInt8) (timeout : Int) (p : Program β) :
    Yields (Ages .read p) (p.uartWrite os data timeout) := by
  refine (uartWrite_yields os data timeout p).mono fun q ⟨_, ends⟩ => ?_
  have later : ∀ errno offset,
      Ages .read p ((p.withErrno errno).writeLater os data offset timeout) :=
    fun errno offset => .beside le_rfl rfl rfl rfl
  cases ends with
  | refused => exact later .eagain 0
  | short => exact later _ _
  | @broke e =>
    have answered : Ages .read p ((p.withErrno e).recordErrno.handleWriteCompleted false) :=
      (ages_failed p e).trans (ages_handleWriteCompleted _ false)
    exact answered.trans (ages_uartCloseOnError _ e)
  | @expired n errno =>
    have recorded : Ages .read p ((p.withErrno errno).record .eagain) :=
      (ages_withErrno p errno).trans (ages_record _ .eagain)
    exact recorded.trans (ages_handleWriteCompleted _ false)
  | @written errno => exact (ages_withErrno p errno).trans (ages_handleWriteCompleted _ true)

/-- A read is nothing to a pending write. -/
theorem uartRead_ages (os : Os β) (timeout : Int) (p : Program β) :
    Yields (Ages .write p) (p.uartRead os timeout) := by
  refine (uartRead_yields os timeout p).mono fun q ends => ?_
  cases ends with
  | active => exact (ages_record p .einval).trans (ages_handleReadCompleted _ none)
  | @data b bs errno => exact (ages_withErrno p errno).trans (ages_handleReadCompleted _ _)
  | @later result errno =>
    refine (ages_withErrno p errno).trans ?_
    unfold readLater
    split
    · exact ages_handleReadCompleted _ _
    · exact .beside le_rfl rfl rfl rfl
  | @broke e =>
    have answered : Ages .write p ((p.withErrno e).recordErrno.handleReadCompleted none) :=
      (ages_failed p e).trans (ages_handleReadCompleted _ none)
    exact answered.trans (ages_uartCloseOnError _ e)

/-- What is pending, the port admits. -/
def Placed (p : Program β) : Prop := ∀ op, p.uart.waits op = true → p.uart.admits op = true

theorem exists_waits (something : p.pending = true) : ∃ op, p.uart.waits op = true :=
  (Bool.or_eq_true_iff.mp something).elim (⟨.write, ·⟩) (⟨.read, ·⟩)

theorem pending_of_waits (waits : p.uart.waits op = true) : p.pending = true := by
  cases op with
  | write => exact Bool.or_eq_true_iff.mpr (.inl waits)
  | read => exact Bool.or_eq_true_iff.mpr (.inr waits)

theorem Sound.placed (sound : Sound p) : Placed p := by
  intro op waits
  have isOpen := sound.isOpen (pending_of_waits waits)
  cases op with
  | write => exact isOpen
  | read =>
    show (p.uart.fd.isSome && !p.uart.activeModeEnabled) = true
    rw [isOpen, sound.passive waits]
    rfl

/-- A request for something else. -/
theorem handleElixirRequest_ages (placed : Placed p) (os : Os β) {command : Command}
    (notWrite : ∀ data timeout, command = .write data timeout → op ≠ .write)
    (notRead : ∀ timeout, command = .read timeout → op ≠ .read) :
    Yields (Ages op p) (p.handleElixirRequest os command) := by
  have plain : command.plain = true → Yields (Ages op p) (p.handleElixirRequest os command) :=
    fun plain => (handleElixirRequest_plain os plain p).mono fun _ => Replies.ages
  cases command with
  | «open» name opts => exact (handleOpen_cases os name opts p).ages (placed op)
  | configure opts => exact handleConfigure_ages os opts p
  | close => exact handleClose_ages p
  | write data timeout =>
    cases op with
    | write => exact absurd rfl (notWrite data timeout rfl)
    | read =>
      rw [handleElixirRequest, handleWrite]
      refine whenOpen_yields (ages_send p _) fun _ => ?_
      exact yields_bind _ fun timeout => uartWrite_ages os data timeout p
  | read timeout =>
    cases op with
    | write =>
      rw [handleElixirRequest, handleRead]
      refine whenOpen_yields (ages_send p _) fun _ => ?_
      exact yields_bind _ fun timeout => uartRead_ages os timeout p
    | read => exact absurd rfl (notRead timeout rfl)
  | _ => exact plain rfl

/-! ## The request for the operation -/

/-- The operation was not pending. If it now is, then with this deadline. -/
structure Begun (op : Transfer) (completion : UInt64) (p q : Program β) : Prop where
  idle : p.uart.waits op = false
  admits : q.uart.waits op = true → q.uart.admits op = true
  deadline : q.uart.waits op = true → q.uart.completionDeadline op = completion

/-- It was refused, or is over. -/
theorem Begun.ended {completion : UInt64} (idle : p.uart.waits op = false)
    (idle' : q.uart.waits op = false) : Begun op completion p q :=
  ⟨idle, fun waits => absurd (idle'.symm.trans waits) (by simp),
    fun waits => absurd (idle'.symm.trans waits) (by simp)⟩

theorem uartWrite_begun (isOpen : p.uart.fd.isSome = true) (os : Os β) (data : List UInt8)
    (timeout : Int) :
    Yields (Begun .write (deadline os.writeClock timeout) p) (p.uartWrite os data timeout) := by
  refine (uartWrite_yields os data timeout p).mono fun q ⟨unset, ends⟩ => ?_
  have idle : p.uart.waits .write = false := by simp [Uart.waits, unset]
  cases ends with
  | refused => exact ⟨idle, fun _ => isOpen, fun _ => rfl⟩
  | short => exact ⟨idle, fun _ => isOpen, fun _ => rfl⟩
  | broke => exact .ended idle (by simp [Uart.waits])
  | expired => exact .ended idle (by simpa using idle)
  | written => exact .ended idle (by simpa using idle)

theorem uartRead_begun (placed : Placed p) (isOpen : p.uart.fd.isSome = true) (os : Os β)
    (timeout : Int) :
    Yields (Begun .read (deadline os.readClock timeout) p) (p.uartRead os timeout) := by
  cases waits : p.uart.readPending with
  | true =>
    -- a read is not pending in active mode, and in passive mode the program exits
    have passive := (Bool.and_eq_true_iff.mp (placed .read waits)).2
    unfold uartRead
    rw [if_neg (by simpa using passive), if_pos waits]
    trivial
  | false =>
    have idle : p.uart.waits .read = false := waits
    refine (uartRead_yields os timeout p).mono fun q ends => ?_
    cases ends with
    | active => exact .ended idle (by simpa using idle)
    | data => exact .ended idle (by simpa using idle)
    | later passive =>
      unfold readLater
      split
      · exact .ended idle (by simpa using idle)
      · have admits : p.uart.admits .read = true := by simp [Uart.admits, isOpen, passive]
        exact ⟨idle, fun _ => admits, fun _ => rfl⟩
    | broke => exact .ended idle (by simp [Uart.waits])

/-- On a closed port nothing is pending, and nothing is begun. -/
theorem whenOpen_begun (placed : Placed p) {completion : UInt64}
    {go : Program β → Except Stop (Program β)}
    (begun : p.uart.fd.isSome = true → Yields (Begun op completion p) (go p)) :
    Yields (Begun op completion p) (p.whenOpen go) := by
  unfold whenOpen
  split
  · next isOpen => exact begun isOpen
  · next closed =>
    have idle : p.uart.waits op = false := by
      by_contra waits
      have admits := placed op (by simpa using waits)
      cases op with
      | write => exact closed admits
      | read => exact closed (Bool.and_eq_true_iff.mp admits).1
    exact Begun.ended idle idle

/-- What was asked for: the clock at the request, and the timeout. -/
structure Asked where
  clock : UInt64 := 0
  timeout : Nat := 0

/-- The deadline of what was asked for; the timeout is an `int` by then. -/
def Asked.deadline (a : Asked) : UInt64 := Program.deadline a.clock (toInt a.timeout)

/-- The operation an event requests. -/
def requested : Event β → Option (Transfer × Asked)
  | .request os (.write _ timeout) => some (.write, ⟨os.writeClock, timeout⟩)
  | .request os (.read timeout) => some (.read, ⟨os.readClock, timeout⟩)
  | _ => none

/-- **An event that is not the operation's request.** -/
theorem handle_ages (placed : Placed p) {e : Event β} (other : ∀ a, requested e ≠ some (op, a)) :
    Yields (Ages op { p with out := [] }) (p.handle e) := by
  have entered : ∀ os : Os β, Ages op { p with out := [] } (p.enter os) :=
    fun _ => .of_uart rfl le_rfl
  cases e with
  | request os command =>
    have ages : Yields (Ages op (p.enter os)) (handleElixirRequest os command (p.enter os)) := by
      apply handleElixirRequest_ages (p := p.enter os) placed os
      · rintro data timeout rfl rfl
        exact other _ rfl
      · rintro timeout rfl rfl
        exact other _ rfl
    exact ages.mono fun _ => (entered os).trans
  | process os => exact (uartProcess_ages os _).yields.mono fun _ => (entered os).trans

/-- **The operation's request.** -/
theorem handle_begun (placed : Placed p) {e : Event β} {a : Asked}
    (asks : requested e = some (op, a)) (fits : (a.timeout : Int) ≤ LONG_MAX) :
    Yields (Begun op a.deadline p) (p.handle e) := by
  unfold requested at asks
  split at asks
  · next os data timeout =>
    obtain ⟨rfl, rfl⟩ := Prod.mk.inj (Option.some.inj asks)
    have begun : Yields (Begun .write (Program.deadline os.writeClock (toInt timeout)) (p.enter os))
        ((p.enter os).handleWrite os data timeout) := by
      refine whenOpen_begun (p := p.enter os) placed fun isOpen => ?_
      rw [decodeTimeout_eq fits]
      exact uartWrite_begun isOpen os data (toInt timeout)
    exact begun.mono fun _ h => ⟨h.idle, h.admits, h.deadline⟩
  · next os timeout =>
    obtain ⟨rfl, rfl⟩ := Prod.mk.inj (Option.some.inj asks)
    have begun : Yields (Begun .read (Program.deadline os.readClock (toInt timeout)) (p.enter os))
        ((p.enter os).handleRead os timeout) := by
      refine whenOpen_begun (p := p.enter os) placed fun isOpen => ?_
      rw [decodeTimeout_eq fits]
      exact uartRead_begun (p := p.enter os) placed isOpen os (toInt timeout)
    exact begun.mono fun _ h => ⟨h.idle, h.admits, h.deadline⟩
  · exact absurd asks (by simp)

end Program

end CircuitsUart
