import CircuitsUart.Port.Responses

/-!
# What the C program receives

`input` is what `read` returns while an event is handled. All of it is passed on, in the
order it was read (`handle_data`), and in a response only when a read asked for it
(`handle_notRead`).

`input` is defined from the event and the state before it, and `data` from what is written to
standard output. Neither mentions the other, nor the read buffer in between; that they are equal is
the theorem. It has no condition on the run: a byte that was read is passed on even by the event
that then finds the end of the file and closes the port.

`Passes` is the statement for a part of an event. It composes, with the data of one part behind
that of the other, so a handler that closes a port and opens it again is two of them.
-/

set_option autoImplicit false

namespace CircuitsUart

namespace Port

variable {β : Type}

/-- The received bytes in a message. -/
def Out.bytes : Out β → List β
  | .response r => r.bytes
  | .notif n => n.bytes

/-- The received bytes in a response. -/
def Out.responseBytes : Out β → List β
  | .response r => r.bytes
  | .notif _ => []

end Port

open Port

namespace Program

variable {β : Type}

/-- The bytes a call of `read` returns. -/
def readBytes (os : Os β) (p : Program β) : List β :=
  match p.read os with
  | .ok (.ok bytes, _) => bytes
  | _ => []

/-- The bytes read from the device while an event is handled. `uart_read` and `process_read`
each call `read` once. -/
def input (p : Program β) : Event β → List β
  | .request os (.read _) =>
    if p.uart.fd.isSome ∧ p.uart.activeModeEnabled = false then (p.enter os).readBytes os else []
  | .request _ _ => []
  | .process os =>
    match p.uart.fd, (p.enter os).processWrite os with
    | some _, .ok q =>
      if q.uart.activeModeEnabled ∨ q.uart.readPending then q.readBytes os else []
    | _, _ => []

/-- The received bytes written to standard output. -/
def data (p : Program β) : List β := p.out.flatMap Out.bytes

/-- Those in responses. -/
def responded (p : Program β) : List β := p.out.flatMap Out.responseBytes

theorem retry_mem {α : Type} {errno errno' : Errno} {results : List (Except Errno α)} {a : α}
    (h : retry errno results = some (.ok a, errno')) : .ok a ∈ results := by
  induction results generalizing errno with
  | nil => exact absurd h (by simp [retry])
  | cons result rest ih =>
    cases result with
    | ok a' =>
      simp only [retry, Option.some.injEq, Prod.mk.injEq, Except.ok.injEq] at h
      simp [h.1]
    | error e =>
      cases e with
      | eintr => exact List.mem_cons_of_mem _ (ih h)
      | _ => exact absurd h (by simp [retry])

/-- What is read is among what `read` may return. -/
theorem readBytes_mem {os : Os β} {p : Program β} {b : β} (h : b ∈ p.readBytes os) :
    ∃ bytes, .ok bytes ∈ os.reads ∧ b ∈ bytes := by
  unfold readBytes read at h
  split at h
  · next bytes q hread =>
    split at hread
    · exact absurd hread (by simp)
    · split at hread
      · exact absurd hread (by simp)
      · next result errno hretry =>
        obtain ⟨rfl, -⟩ := Prod.mk.inj (Except.ok.inj hread)
        exact ⟨bytes, retry_mem hretry, h⟩
  · exact absurd h (by simp)

/-- What an event reads, `read` returns. -/
theorem mem_input {p : Program β} {os : Os β} {b : β} :
    (∀ command, b ∈ p.input (.request os command) → ∃ q : Program β, b ∈ q.readBytes os) ∧
      (b ∈ p.input (.process os) → ∃ q : Program β, b ∈ q.readBytes os) := by
  refine ⟨fun command h => ?_, fun h => ?_⟩
  · cases command with
    | read timeout =>
      rw [input] at h
      split at h
      · exact ⟨_, h⟩
      · exact absurd h (by simp)
    | _ => exact absurd h (by simp [input])
  · rw [input] at h
    split at h
    · split at h
      · exact ⟨_, h⟩
      · exact absurd h (by simp)
    · exact absurd h (by simp)

/-! ## Passing data on -/

/-- From `p` to `q`, `data` was passed on, no read was begun, and no response carries data
unless a read was pending. -/
structure Passes (data : List β) (p q : Program β) : Prop where
  data : q.data = p.data ++ data
  waits : q.uart.readPending = true → p.uart.readPending = true
  answers : p.uart.readPending = false → q.responded = p.responded

theorem Passes.trans {a b : List β} {p q r : Program β} (h : Passes a p q) (k : Passes b q r) :
    Passes (a ++ b) p r where
  data := by rw [k.data, h.data, List.append_assoc]
  waits := fun hr => h.waits (k.waits hr)
  answers := fun hp => by
    have hq : q.uart.readPending = false := by
      by_contra hne
      exact absurd (h.waits (by simpa using hne)) (by simp [hp])
    rw [k.answers hq, h.answers hp]

theorem Passes.refl (p : Program β) : Passes [] p p :=
  ⟨by simp, id, fun _ => rfl⟩

section

variable {data : List β} {p q q' : Program β} (h : Passes data p q)

include h

/-- Nothing written. -/
theorem Passes.same (out : q'.out = q.out)
    (waits : q'.uart.readPending = true → q.uart.readPending = true) : Passes data p q' where
  data := by rw [← h.data, Program.data, out]; rfl
  waits := fun hr => h.waits (waits hr)
  answers := fun hp => by rw [← h.answers hp, responded, out]; rfl

/-- A message without data. -/
theorem Passes.send {o : Out β} (empty : o.bytes = []) : Passes data p (q.send o) := by
  have quiet : o.responseBytes = [] := by
    cases o with
    | response r => exact empty
    | notif n => rfl
  refine ⟨?_, h.waits, fun hp => ?_⟩
  · rw [← h.data]
    simp [Program.data, Program.send, empty]
  · rw [← h.answers hp]
    simp [responded, Program.send, quiet]

theorem Passes.record (errno : Errno) : Passes data p (q.record errno) := h.same rfl id

theorem Passes.recordErrno : Passes data p q.recordErrno := h.same rfl id

theorem Passes.withErrno (errno : Errno) : Passes data p (q.withErrno errno) := h.same rfl id

theorem Passes.handleWriteCompleted (ok : Bool) : Passes data p (q.handleWriteCompleted ok) := by
  cases ok <;> exact h.send rfl

theorem Passes.writeDone (ok : Bool) : Passes data p (q.writeDone ok) := by
  have set : Passes data p { q with uart := { q.uart with writeData := none } } := h.same rfl id
  exact set.handleWriteCompleted ok

theorem Passes.readDone {answer : Option (List β)} (empty : answer = none ∨ answer = some []) :
    Passes data p (q.readDone answer) := by
  have set : Passes data p { q with uart := { q.uart with readPending := false } } :=
    h.same rfl (by simp)
  rcases empty with rfl | rfl <;> exact set.send rfl

theorem Passes.cancelWrite : Passes data p q.cancelWrite := by
  unfold Program.cancelWrite
  split
  · exact ((h.record .ecanceled).handleWriteCompleted false).same rfl id
  · exact h

theorem Passes.cancelRead : Passes data p q.cancelRead := by
  unfold Program.cancelRead
  split
  · refine Passes.same (q := (q.record .ecanceled).handleReadCompleted none) ?_ rfl (by simp)
    exact (h.record .ecanceled).send rfl
  · exact h

theorem Passes.uartClose : Passes data p q.uartClose := h.cancelWrite.cancelRead.same rfl id

theorem Passes.uartCloseOnError (reason : Errno) : Passes data p (q.uartCloseOnError reason) := by
  unfold Program.uartCloseOnError
  dsimp only
  split
  · unfold handleNotifyRead
    split <;> exact (h.uartClose.record reason).send rfl
  · exact h.uartClose

theorem Passes.checkWriteDeadline (os : Os β) : Passes data p (q.checkWriteDeadline os) := by
  unfold Program.checkWriteDeadline
  split
  · exact (h.record .eagain).writeDone false
  · exact h

theorem Passes.readFailed (reason : Errno) : Passes data p (q.readFailed reason) := by
  unfold Program.readFailed
  dsimp only
  split
  · exact (h.recordErrno.readDone (.inl rfl)).uartCloseOnError reason
  · exact h.uartCloseOnError reason

end

/-! ## The main loop -/

/-- The bytes of a call that returned. -/
theorem Reads.readBytes {os : Os β} {p : Program β} {result : Except Errno (List β)} {errno : Errno}
    (reads : Reads os p result errno) :
    p.readBytes os = match result with | .ok bytes => bytes | .error _ => [] := by
  unfold Program.readBytes
  rw [reads.returned]
  cases result <;> rfl

theorem processWrite_passes (os : Os β) (p : Program β) :
    Yields (Passes [] p) (p.processWrite os) := by
  unfold processWrite
  split
  · next data _ =>
    refine (continueInProgressWrite_cases os data p).yields.mono fun q ends => ?_
    have set := fun errno => (Passes.refl p).withErrno errno
    cases ends with
    | written => exact (set _).writeDone true
    | short =>
      refine Passes.checkWriteDeadline ?_ os
      exact (set _).same rfl id
    | broke => exact ((set _).recordErrno.writeDone false).uartCloseOnError _
    | refused => exact (set _).checkWriteDeadline os
  · exact .refl p

theorem processRead_passes (os : Os β) (p : Program β)
    (reads : p.uart.activeModeEnabled = true ∨ p.uart.readPending = true) :
    Yields (Passes (p.readBytes os) p) (p.processRead os) := by
  refine (processRead_cases os p).yields.mono fun q ends => ?_
  have set := fun errno => (Passes.refl p).withErrno errno
  cases ends with
  | notified _ read =>
    rw [read.readBytes]
    exact ⟨by simp [data, handleNotifyRead, send, withErrno, Out.bytes, Notification.bytes], id,
      fun _ => by simp [responded, handleNotifyRead, send, withErrno, Out.responseBytes]⟩
  | data passive read =>
    rw [read.readBytes]
    have waiting := reads.resolve_left passive
    refine ⟨?_, fun _ => waiting, fun hp => absurd (waiting.symm.trans hp) (by simp)⟩
    simp [data, readDone, handleReadCompleted, send, withErrno, Out.bytes, Response.bytes]
  | ended read =>
    rw [read.readBytes]
    exact (set _).readFailed .eio
  | expired read =>
    rw [read.readBytes]
    exact (set _).readDone (.inr rfl)
  | refused read =>
    rw [read.readBytes]
    exact set _
  | broke read =>
    rw [read.readBytes]
    exact (set _).readFailed _

/-- **One turn of the loop** passes on what it reads. -/
theorem uartProcess_passes (os : Os β) (p : Program β) :
    Yields (Passes (p.input (.process os)) (p.enter os)) ((p.enter os).uartProcess os) := by
  have entered : (p.enter os).uart.fd = p.uart.fd := rfl
  unfold uartProcess
  rw [entered]
  cases hfd : p.uart.fd with
  | none =>
    have : p.input (.process os) = [] := by simp [input, hfd]
    rw [this]
    exact .refl _
  | some fd =>
    cases hw : (p.enter os).processWrite os with
    | error stop => trivial
    | ok q =>
      have wrote := processWrite_passes os (p.enter os)
      rw [hw] at wrote
      have : p.input (.process os) =
          if q.uart.activeModeEnabled ∨ q.uart.readPending then q.readBytes os else [] := by
        simp only [input, hfd, hw]
      rw [this]
      show Yields _ (if _ then _ else _)
      split
      · next reads => exact (processRead_passes os q reads).mono fun r passed => wrote.trans passed
      · exact wrote

/-! ## The request handlers -/

theorem uartOpen_passes (os : Os β) (name : List UInt8) (config : UartConfig) (p : Program β) :
    Passes [] p (uartOpen os name config p).2 := by
  unfold uartOpen
  split
  · exact .refl p
  · split
    · exact (Passes.refl p).same rfl id
    · dsimp only
      split <;> exact (Passes.refl p).same rfl id

theorem Passes.adopt {p q : Program β} (h : Passes [] p q) (os : Os β) (config : UartConfig) :
    Passes [] p (q.adopt os config) := by
  refine h.same (out_adopt os config q) fun waits => ?_
  rw [uart_adopt] at waits
  exact waits

theorem shut_passes (p : Program β) : Passes [] p p.shut := by
  unfold shut
  split
  · exact (Passes.refl p).uartClose
  · exact .refl p

theorem handleOpen_passes (os : Os β) (name : List UInt8) (opts : List UartOption)
    (p : Program β) : Passes [] p (p.handleOpen os name opts) := by
  have ways := handleOpen_cases os name opts p
  have tried : ∀ config, Passes [] p (uartOpen os (cString name) config p.shut).2 :=
    fun config => p.shut_passes.trans (uartOpen_passes os (cString name) config p.shut)
  generalize p.handleOpen os name opts = q at ways
  cases ways with
  | refused reason unfit => exact (Passes.refl p).send rfl
  | @failed config q short parsed opened =>
    have passed := tried config
    rw [opened] at passed
    exact passed.send rfl
  | @opened config q short parsed opened =>
    have passed := tried config
    rw [opened] at passed
    exact (passed.adopt os config).send rfl

theorem handleConfigure_passes (os : Os β) (opts : List UartOption) (p : Program β) :
    Yields (Passes [] p) (p.handleConfigure os opts) := by
  refine (handleConfigure_cases os opts p).mono fun q ways => ?_
  have set : ∀ {config : UartConfig} {ok : Bool} {q : Program β},
      p.uartConfigure os config = .ok (ok, q) → Passes [] p q := by
    intro config ok q tried
    obtain ⟨uart, -, out, -, -⟩ := uartConfigure_eq_ok tried
    refine (Passes.refl p).same out fun waits => ?_
    rw [uart] at waits
    exact waits
  cases ways with
  | refused unparsed => exact (Passes.refl p).send rfl
  | failed parsed tried => exact (set tried).send rfl
  | configured parsed tried => exact ((set tried).adopt os _).send rfl

theorem handleClose_passes (p : Program β) : Passes [] p p.handleClose :=
  p.shut_passes.send rfl

theorem whenOpen_yields {p : Program β} {go : Program β → Except Stop (Program β)}
    {Q : Program β → Prop} (refused : Q (p.sendErrorResponse .ebadf))
    (h : p.uart.fd.isSome = true → Yields Q (go p)) : Yields Q (p.whenOpen go) := by
  unfold whenOpen
  split
  · next isOpen => exact h isOpen
  · exact refused

/-- From `p` to `q` a response without data was sent, after a system call at the most, which
may have failed. -/
def Replies (p q : Program β) : Prop :=
  ∃ p' r, (p' = p ∨ ∃ errno, p' = (p.withErrno errno).recordErrno) ∧ r.bytes = [] ∧
    q = p'.send (.response r)

theorem Replies.send (p : Program β) {r : Response β} (empty : r.bytes = []) :
    Replies p (p.send (.response r)) := ⟨p, r, .inl rfl, empty, rfl⟩

theorem call_replies (os : Os β) (site : CallSite) (p : Program β) :
    Replies p (respond (p.call os site)) := by
  unfold call
  cases os.fails site with
  | none => exact .send p rfl
  | some errno => exact ⟨_, _, .inr ⟨errno, rfl⟩, rfl, rfl⟩

/-- **A plain request** does no more than reply. -/
theorem handleElixirRequest_plain (os : Os β) {command : Command} (plain : command.plain = true)
    (p : Program β) : Yields (Replies p) (p.handleElixirRequest os command) := by
  have refused : Replies p (p.sendErrorResponse .ebadf) := .send p rfl
  cases command with
  | configuration => exact .send p rfl
  | drain =>
    rw [handleElixirRequest, handleDrain]
    refine whenOpen_yields refused fun _ => ?_
    unfold uartDrain
    split
    · trivial
    · exact call_replies os .tcdrain p
  | flush direction =>
    rw [handleElixirRequest, handleFlush]
    refine whenOpen_yields refused fun _ => ?_
    unfold uartFlush
    split
    · trivial
    · exact call_replies os .tcflush p
  | setRts value =>
    rw [handleElixirRequest, handleSetRts]
    exact whenOpen_yields refused fun _ => call_replies os .modemSet p
  | setDtr value =>
    rw [handleElixirRequest, handleSetDtr]
    exact whenOpen_yields refused fun _ => call_replies os .modemSet p
  | setBreak value =>
    rw [handleElixirRequest, handleSetBreak]
    exact whenOpen_yields refused fun _ => call_replies os .breakSet p
  | signals =>
    rw [handleElixirRequest, handleSignals]
    refine whenOpen_yields refused fun _ => ?_
    unfold uartGetSignals call
    cases os.fails .modemGet with
    | none => exact .send p rfl
    | some errno => exact ⟨_, _, .inr ⟨errno, rfl⟩, rfl, rfl⟩
  | _ => exact absurd plain (by simp [Command.plain])

theorem Replies.passes {p q : Program β} (h : Replies p q) : Passes [] p q := by
  obtain ⟨p', r, called, empty, rfl⟩ := h
  refine Passes.send ?_ empty
  rcases called with rfl | ⟨errno, rfl⟩
  · exact .refl p'
  · exact ((Passes.refl p).withErrno errno).recordErrno

theorem uartWrite_passes (os : Os β) (data : List UInt8) (timeout : Int) (p : Program β) :
    Yields (Passes [] p) (p.uartWrite os data timeout) := by
  refine (uartWrite_yields os data timeout p).mono fun q ⟨_, ends⟩ => ?_
  have set := fun errno => (Passes.refl p).withErrno errno
  cases ends with
  | refused => exact (set _).same rfl id
  | short => exact (set _).same rfl id
  | broke => exact ((set _).recordErrno.handleWriteCompleted false).uartCloseOnError _
  | expired => exact ((set _).record .eagain).handleWriteCompleted false
  | written => exact (set _).handleWriteCompleted true

theorem yields_bind {α γ : Type} {R : γ → Prop} (x : Except Stop α) {f : α → Except Stop γ}
    (h : ∀ a, Yields R (f a)) : Yields R (x >>= f) := by
  cases x with
  | ok a => exact h a
  | error stop => trivial

/-- **A request that is not a read** receives nothing. -/
theorem handleElixirRequest_passes (os : Os β) {command : Command} (p : Program β)
    (notRead : ∀ timeout, command ≠ .read timeout) :
    Yields (Passes [] p) (p.handleElixirRequest os command) := by
  have plain : command.plain = true → Yields (Passes [] p) (p.handleElixirRequest os command) :=
    fun plain => (handleElixirRequest_plain os plain p).mono fun _ => Replies.passes
  cases command with
  | «open» name opts => exact handleOpen_passes os name opts p
  | configure opts => exact handleConfigure_passes os opts p
  | close => exact p.handleClose_passes
  | write data timeout =>
    rw [handleElixirRequest, handleWrite]
    refine whenOpen_yields ((Passes.refl p).send rfl) fun _ => ?_
    exact yields_bind _ fun timeout => uartWrite_passes os data timeout p
  | read timeout => exact absurd rfl (notRead timeout)
  | _ => exact plain rfl

theorem uartRead_data (os : Os β) (timeout : Int) (p : Program β) :
    Yields (fun q => q.data = p.data ++
      if p.uart.activeModeEnabled = false then p.readBytes os else []) (p.uartRead os timeout) := by
  refine (uartRead_yields os timeout p).mono fun q ends => ?_
  have set := fun errno => (Passes.refl p).withErrno errno
  cases ends with
  | active isActive =>
    rw [if_neg (by simp [isActive])]
    exact (Passes.send (q := p.record .einval) ((Passes.refl p).record .einval) rfl).data
  | data passive read =>
    rw [if_pos passive, read.readBytes]
    simp [data, handleReadCompleted, send, withErrno, Out.bytes, Response.bytes]
  | @later _ errno passive read nothing =>
    have none_read : p.readBytes os = [] := by
      rw [read.readBytes]
      rcases nothing with rfl | rfl <;> rfl
    rw [if_pos passive, none_read]
    unfold readLater
    split
    · exact ((set errno).send rfl).data
    · exact (set errno).data
  | broke passive read =>
    rw [if_pos passive, read.readBytes]
    exact (((set _).recordErrno.send rfl).uartCloseOnError _).data

/-! ## Events -/

/-- **All that is read is passed on**, in the order it was read. -/
theorem handle_data {p q : Program β} {e : Event β} (h : p.handle e = .ok q) :
    q.data = p.input e := by
  have passed : ∀ {data : List β} {os : Os β}, Passes data (p.enter os) q → q.data = data :=
    fun k => by simpa [Program.data, enter] using k.data
  cases e with
  | request os command =>
    have other : (∀ timeout, command ≠ .read timeout) → q.data = [] := fun notRead => by
      have k := handleElixirRequest_passes os (p.enter os) notRead
      rw [show (p.enter os).handleElixirRequest os command = .ok q from h] at k
      exact passed k
    cases command with
    | read timeout =>
      have k : Yields (fun q => q.data = p.input (.request os (.read timeout)))
          ((p.enter os).whenOpen fun p => decodeTimeout timeout >>= fun t => p.uartRead os t) := by
        unfold whenOpen
        have isOpen : (p.enter os).uartIsOpen = p.uart.fd.isSome := rfl
        rw [isOpen]
        split
        · next hopen =>
          refine yields_bind _ fun t => (uartRead_data os t (p.enter os)).mono fun q hq => ?_
          have isActive : (p.enter os).uart.activeModeEnabled = p.uart.activeModeEnabled := rfl
          rw [hq, isActive]
          cases active : p.uart.activeModeEnabled <;> simp [input, hopen, active, data, enter]
        · next closed =>
          show data _ = _
          simp [input, closed, data, enter, sendErrorResponse, send, Out.bytes, Response.bytes]
      rw [show ((p.enter os).whenOpen fun p => decodeTimeout timeout >>= fun t => p.uartRead os t) =
        .ok q from h] at k
      exact k
    | _ => exact other (by simp)
  | process os =>
    have k := uartProcess_passes os p
    rw [show (p.enter os).uartProcess os = .ok q from h] at k
    exact passed k

/-- **Data answers reads only.** Without a read there is none in a response, and none will be. -/
theorem handle_notRead {p q : Program β} {e : Event β} (h : p.handle e = .ok q)
    (notRead : ∀ os timeout, e ≠ .request os (.read timeout))
    (idle : p.uart.readPending = false) : q.uart.readPending = false ∧ q.responded = [] := by
  have passed : ∀ {data : List β} {os : Os β}, Passes data (p.enter os) q →
      q.uart.readPending = false ∧ q.responded = [] := fun {_ os} k => by
    refine ⟨?_, by simpa [responded, enter] using k.answers idle⟩
    by_contra hne
    exact absurd (k.waits (by simpa using hne)) (by simp [enter, idle])
  cases e with
  | request os command =>
    have k := handleElixirRequest_passes os (p.enter os)
      (fun timeout heq => notRead os timeout (by rw [heq]) : ∀ timeout, command ≠ .read timeout)
    rw [show (p.enter os).handleElixirRequest os command = .ok q from h] at k
    exact passed k
  | process os =>
    have k := uartProcess_passes os p
    rw [show (p.enter os).uartProcess os = .ok q from h] at k
    exact passed k

/-- A request that was handled is answered, or will be. -/
theorem handle_answered {p q : Program β} {os : Os β} {command : Command}
    (idle : p.pending = false) (h : p.handle (.request os command) = .ok q) :
    Sound q ∧ q.owed = 1 := by
  have answered : Yields (Answered (p.enter os)) ((p.enter os).handleElixirRequest os command) := by
    by_cases wf : command.WellFormed
    · exact (handleElixirRequest_answered (p := p.enter os) idle os wf).yields
    · -- The timeout is no `long`: a closed port answers all the same, an open one stops.
      have refused : ∀ (timeout : Nat) (go : Int → Program β → Except Stop (Program β)),
          ¬ timeout ≤ LONG_MAX → Yields (Answered (p.enter os))
            ((p.enter os).whenOpen fun p => decodeTimeout timeout >>= fun t => go t p) :=
        fun timeout go long => by
          unfold whenOpen
          split
          · have : decodeLong (.int timeout) = none := by
              unfold decodeLong
              exact if_neg fun fits => long (by exact_mod_cast fits.2)
            rw [decodeTimeout, this]
            trivial
          · exact Answered.send (p := p.enter os) (q := p.enter os) idle idle rfl _
      cases command with
      | write data timeout => exact refused timeout (fun t p => p.uartWrite os data t) wf
      | read timeout => exact refused timeout (fun t p => p.uartRead os t) wf
      | _ => exact absurd trivial wf
  rw [show (p.enter os).handleElixirRequest os command = .ok q from h] at answered
  obtain ⟨sound, owed⟩ := answered
  refine ⟨sound, owed.trans ?_⟩
  rw [owed_of_idle (p := p.enter os) idle]
  rfl

end Program

end CircuitsUart
