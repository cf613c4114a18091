import CircuitsUart.Port.Failure

/-!
# One notification for each failure

A port that fails in active mode is closed with one `{:error, reason}` notification, and
nothing is read from it or notified until it is opened again. `failure` says what failed
while an event is handled, and `Clean` that this is what happens.

The exception is a write that fails while it is continued from the main loop in active mode:
`uart_process` goes on to read from the port it has just closed (`Breaks`), and notifies
`EBADF` as well.

`Clean` speaks of one event and asks for everything at once, both ways: a failure is notified once,
and an event without one notifies nothing but data. Requests that neither read nor write can be
dismissed together (`handleElixirRequest_quiet`), and for the rest `Port.Failure` has said how they
end.
-/

set_option autoImplicit false

namespace CircuitsUart

namespace Port

variable {β : Type}

/-- A call that fails sets `errno`. -/
def Os.Real (os : Os β) : Prop :=
  (∀ r ∈ os.reads, r ≠ .error .zero) ∧ ∀ r ∈ os.writes, r ≠ .error .zero

end Port

open Lib Port

namespace Program

variable {β : Type}

/-! ## Notifications -/

/-- The `'n'` messages. -/
def notifs (out : List (Out β)) : List (Notification β) :=
  out.filterMap fun
    | .notif n => some n
    | .response _ => none

@[simp] theorem notifs_append (a b : List (Out β)) : notifs (a ++ b) = notifs a ++ notifs b :=
  List.filterMap_append

theorem errorNotifs_eq (out : List (Out β)) : errorNotifs out = (notifs out).filterMap fun
    | .error reason => some reason
    | .data _ => none := by
  unfold errorNotifs notifs
  rw [List.filterMap_filterMap]
  congr 1
  funext o
  rcases o with r | _ | _ <;> rfl

/-- Only responses were sent. -/
def Quiet (p q : Program β) : Prop := notifs q.out = notifs p.out

theorem Quiet.refl (p : Program β) : Quiet p p := rfl

theorem Quiet.errorNotifs {p q : Program β} (h : Quiet p q) :
    errorNotifs q.out = errorNotifs p.out := by
  rw [errorNotifs_eq, errorNotifs_eq, h]

theorem Quiet.respond {p q : Program β} (h : Quiet p q) (r : Response β) :
    Quiet p (q.send (.response r)) := by
  unfold Quiet Program.send
  rw [notifs_append, h]
  exact List.append_nil _

/-- What writes nothing is quiet. -/
theorem Quiet.same {p q r : Program β} (h : Quiet p q) (out : r.out = q.out) : Quiet p r := by
  unfold Quiet
  rw [out]
  exact h

theorem Quiet.uartClose {p q : Program β} (h : Quiet p q) : Quiet p q.uartClose := by
  unfold Quiet
  rw [out_uartClose, notifs_append, h]
  have none_sent : notifs q.cancelled = [] := by
    unfold cancelled
    cases q.uart.writeData.isSome <;> cases q.uart.readPending <;> rfl
  rw [none_sent, List.append_nil]

theorem shut_quiet (p : Program β) : Quiet p p.shut := by
  unfold shut
  split
  · exact (Quiet.refl p).uartClose
  · exact .refl p

theorem handleOpen_quiet (os : Os β) (name : List UInt8) (opts : List UartOption) (p : Program β) :
    Quiet p (p.handleOpen os name opts) := by
  have ways := handleOpen_cases os name opts p
  have out := fun config => out_uartOpen os (cString name) config p.shut
  generalize p.handleOpen os name opts = q at ways
  cases ways with
  | refused reason unfit => exact (Quiet.refl p).respond _
  | @failed config q short parsed tried =>
    have unsent := out config
    rw [tried] at unsent
    exact (p.shut_quiet.same unsent).respond _
  | @opened config q short parsed tried =>
    have unsent := out config
    rw [tried] at unsent
    exact ((p.shut_quiet.same unsent).same (out_adopt os config q)).respond _

theorem handleConfigure_quiet (os : Os β) (opts : List UartOption) (p : Program β) :
    Yields (Quiet p) (p.handleConfigure os opts) := by
  refine (handleConfigure_cases os opts p).mono fun q ways => ?_
  cases ways with
  | refused unparsed => exact (Quiet.refl p).respond _
  | failed parsed tried =>
    exact ((Quiet.refl p).same (uartConfigure_eq_ok tried).2.2.1).respond _
  | configured parsed tried =>
    have set := (Quiet.refl p).same (uartConfigure_eq_ok tried).2.2.1
    exact (set.same (out_adopt os _ _)).respond _

theorem handleClose_quiet (p : Program β) : Quiet p p.handleClose := p.shut_quiet.respond .ok

theorem Replies.quiet {p q : Program β} (h : Replies p q) : Quiet p q := by
  obtain ⟨p', r, called, -, rfl⟩ := h
  refine Quiet.respond ?_ r
  rcases called with rfl | ⟨errno, rfl⟩
  · exact .refl p'
  · exact .refl p

/-- **A request notifies nobody**, unless it reads or writes on an open port. -/
theorem handleElixirRequest_quiet (os : Os β) {command : Command} (p : Program β)
    (unread : ∀ timeout, command = .read timeout → p.uart.fd = none)
    (unwritten : ∀ data timeout, command = .write data timeout → p.uart.fd = none) :
    Yields (Quiet p) (p.handleElixirRequest os command) := by
  have refused : Quiet p (p.sendErrorResponse .ebadf) := (Quiet.refl p).respond _
  have plain : command.plain = true → Yields (Quiet p) (p.handleElixirRequest os command) :=
    fun plain => (handleElixirRequest_plain os plain p).mono fun _ => Replies.quiet
  cases command with
  | «open» name opts => exact handleOpen_quiet os name opts p
  | configure opts => exact handleConfigure_quiet os opts p
  | close => exact p.handleClose_quiet
  | write data timeout =>
    rw [handleElixirRequest, handleWrite]
    refine whenOpen_yields refused fun isOpen => ?_
    exact absurd (unwritten data timeout rfl) (Option.isSome_iff_ne_none.mp isOpen)
  | read timeout =>
    rw [handleElixirRequest, handleRead]
    refine whenOpen_yields refused fun isOpen => ?_
    exact absurd (unread timeout rfl) (Option.isSome_iff_ne_none.mp isOpen)
  | _ => exact plain rfl

/-! ## What fails while an event is handled -/

/-- An event in which no system call fails without an errno. -/
def Event.Real : Event β → Prop
  | .request os _ => os.Real
  | .process os => os.Real

/-- An event that may read from the port or write to it. -/
def Event.transfers : Event β → Bool
  | .request _ (.read _) | .request _ (.write _ _) | .process _ => true
  | .request _ _ => false

/-- The `read` or the `write` that fails while an event is handled, the first if there are two;
a read in active mode is refused. -/
def failure (p : Program β) : Event β → Option Errno
  | .request os (.write _ timeout) =>
    match p.uart.fd, decodeTimeout timeout with
    | some _, .ok timeout => newWriteFailure os timeout (p.enter os)
    | _, _ => none
  | .request os (.read _) =>
    if p.uart.fd.isSome ∧ p.uart.activeModeEnabled = false then newReadFailure os (p.enter os)
    else none
  | .request _ _ => none
  | .process os => processFailure os (p.enter os)

/-- A pass of the loop reads from the port although it is closed. -/
def ReadsClosed (p : Program β) : Event β → Prop
  | .request _ _ => False
  | .process os => p.uart.fd.isSome = true ∧ ∃ q, (p.enter os).processWrite os = .ok q ∧
      q.uart.fd = none ∧ (q.uart.activeModeEnabled = true ∨ q.uart.readPending = true)

/-- What is asked of an event, from `p` to `q`: a failure closes the port, nothing else that
transfers data does, and it is notified in active mode, once and with its own reason; a closed
port is not read from, and notifies nobody. -/
structure Clean (p : Program β) (e : Event β) (q : Program β) : Prop where
  closed : p.uart.fd.isSome = true → e.transfers = true →
    (q.uart.fd = none ↔ (failure p e).isSome = true)
  notified : errorNotifs q.out =
    if p.uart.activeModeEnabled then ((failure p e).map recordLastError).toList else []
  unread : ¬ ReadsClosed p e
  silent : p.uart.fd = none → notifs q.out = []

/-- The event is a pass of the loop in which the pending write fails in active mode. -/
def Breaks (p : Program β) : Event β → Prop
  | .request _ _ => False
  | .process os => WriteBreaks os (p.enter os)

instance (p : Program β) : (e : Event β) → Decidable (Breaks p e)
  | .request _ _ => inferInstanceAs (Decidable False)
  | .process _ => inferInstanceAs (Decidable (WriteBreaks _ _))

theorem error_mem_of_retry {α : Type} {errno e : Errno} {results : List (Except Errno α)}
    (h : (retry errno results).map Prod.fst = some (.error e)) : .error e ∈ results := by
  induction results generalizing errno with
  | nil => exact absurd h (by simp [retry])
  | cons r rest ih =>
    rcases r with e' | a
    · cases e' with
      | eintr => exact List.mem_cons_of_mem _ (ih h)
      | _ =>
        obtain rfl := Except.error.inj (Option.some.inj h)
        exact List.mem_cons_self
    · exact absurd h (by simp [retry])

theorem readFinds_real {os : Os β} (real : os.Real) {p : Program β} {errno : Errno}
    (found : readFinds os p = some (.error errno)) : errno ≠ .zero := by
  unfold readFinds at found
  split at found
  · obtain rfl := Except.error.inj (Option.some.inj found)
    simp
  · rintro rfl
    exact real.1 _ (error_mem_of_retry found) rfl

theorem writeFinds_real {os : Os β} (real : os.Real) {p : Program β} {errno : Errno}
    (found : writeFinds os p = some (.error errno)) : errno ≠ .zero := by
  unfold writeFinds at found
  split at found
  · obtain rfl := Except.error.inj (Option.some.inj found)
    simp
  · rintro rfl
    exact real.2 _ (error_mem_of_retry found) rfl

theorem fatal_eq_some {errno reason : Errno} (h : fatal errno = some reason) : reason = errno := by
  unfold fatal at h
  split at h
  · exact absurd h (by simp)
  · exact (Option.some.inj h).symm

theorem newWriteFailure_real {os : Os β} (real : os.Real) {timeout : Int} {p : Program β}
    {reason : Errno} (h : newWriteFailure os timeout p = some reason) : reason ≠ .zero := by
  unfold newWriteFailure at h
  split at h
  · next errno found =>
    split at h
    · obtain rfl := Option.some.inj h
      exact writeFinds_real real found
    · rw [fatal_eq_some h]
      exact writeFinds_real real found
  · exact absurd h (by simp)

theorem writeFailure_real {os : Os β} (real : os.Real) {p : Program β} {reason : Errno}
    (h : writeFailure os p = some reason) : reason ≠ .zero := by
  unfold writeFailure at h
  split at h
  · next errno found =>
    rw [fatal_eq_some h]
    exact writeFinds_real real found
  · exact absurd h (by simp)

theorem newReadFailure_real {os : Os β} (real : os.Real) {p : Program β} {reason : Errno}
    (h : newReadFailure os p = some reason) : reason ≠ .zero := by
  unfold newReadFailure at h
  split at h
  · next errno found =>
    rw [fatal_eq_some h]
    exact readFinds_real real found
  · exact absurd h (by simp)

theorem readFailure_real {os : Os β} (real : os.Real) {p : Program β} {reason : Errno}
    (h : readFailure os p = some reason) : reason ≠ .zero := by
  unfold readFailure at h
  split at h
  · obtain rfl := Option.some.inj h
    simp
  · next errno found =>
    rw [fatal_eq_some h]
    exact readFinds_real real found
  · exact absurd h (by simp)

theorem processFailure_real {os : Os β} (real : os.Real) {p : Program β} {reason : Errno}
    (h : processFailure os p = some reason) : reason ≠ .zero := by
  unfold processFailure pendingFailure at h
  split at h
  · split at h
    · next errno pending =>
      obtain rfl := Option.some.inj h
      split at pending
      · exact writeFailure_real real pending
      · exact absurd pending (by simp)
    · split at h
      · exact readFailure_real real h
      · exact absurd h (by simp)
  · exact absurd h (by simp)

theorem failure_real {p : Program β} {e : Event β} (real : e.Real) {reason : Errno}
    (h : failure p e = some reason) : reason ≠ .zero := by
  cases e with
  | process os => exact processFailure_real real h
  | request os command =>
    cases command with
    | write data timeout =>
      simp only [failure] at h
      split at h
      · exact newWriteFailure_real real h
      · exact absurd h (by simp)
    | read timeout =>
      simp only [failure] at h
      split at h
      · exact newReadFailure_real real h
      · exact absurd h (by simp)
    | _ => exact absurd h (by simp [failure])

/-! ## Each event -/

/-- A failure that ends an operation is notified in active mode. -/
theorem Ends.notified {p q : Program β} {failure : Option Errno} (h : Ends p failure q)
    (real : ∀ reason, failure = some reason → reason ≠ .zero) :
    errorNotifs q.out = errorNotifs p.out ++
      if p.uart.activeModeEnabled then (failure.map recordLastError).toList else [] := by
  cases failure with
  | none =>
    have calm : Calm p q := h
    rw [calm.silent, Option.map_none, Option.toList_none, ite_self, List.append_nil]
  | some reason =>
    have closed : Closed p reason q := h
    rw [closed.notified, errorNotifs_errorNotif (real reason rfl)]
    rfl

theorem Ends.closed_iff {p q : Program β} {failure : Option Errno} (h : Ends p failure q)
    (isOpen : p.uart.fd.isSome = true) : q.uart.fd = none ↔ failure.isSome = true := by
  cases failure with
  | none =>
    have calm : Calm p q := h
    rw [calm.fd]
    exact iff_of_false (Option.isSome_iff_ne_none.mp isOpen) (by simp)
  | some reason =>
    have closed : Closed p reason q := h
    exact iff_of_true closed.fd rfl

/-- How an event ends that reads or writes on an open port. -/
theorem handle_ends {p q : Program β} {e : Event β} (isOpen : p.uart.fd.isSome = true)
    (transfers : e.transfers = true) (sound : ¬ Breaks p e) (h : p.handle e = .ok q) :
    ∃ os, Ends (p.enter os) (failure p e) q := by
  obtain ⟨fd, hfd⟩ := Option.isSome_iff_exists.mp isOpen
  cases e with
  | process os =>
    have sound' : ¬ WriteBreaks os (p.enter os) := sound
    have ends := uartProcess_ends sound'
    rw [show (p.enter os).uartProcess os = .ok q from h] at ends
    exact ⟨os, ends⟩
  | request os command =>
    have opened : (p.enter os).uartIsOpen = true := isOpen
    cases command with
    | write data timeout =>
      have hh : (p.enter os).handleWrite os data timeout = .ok q := h
      rw [handleWrite, whenOpen, if_pos opened] at hh
      cases ht : decodeTimeout timeout with
      | error stop => exact absurd hh (by simp [ht, bind, Except.bind])
      | ok t =>
        have ends := uartWrite_ends os data t (p.enter os)
        rw [ht] at hh
        rw [show (p.enter os).uartWrite os data t = .ok q from hh] at ends
        exact ⟨os, by rw [failure, hfd, ht]; exact ends⟩
    | read timeout =>
      have hh : (p.enter os).handleRead os timeout = .ok q := h
      rw [handleRead, whenOpen, if_pos opened] at hh
      cases ht : decodeTimeout timeout with
      | error stop => exact absurd hh (by simp [ht, bind, Except.bind])
      | ok t =>
        have ends := uartRead_ends os t (p.enter os)
        rw [ht] at hh
        rw [show (p.enter os).uartRead os t = .ok q from hh] at ends
        refine ⟨os, ?_⟩
        have same : failure p (.request os (.read timeout)) =
            if (p.enter os).uart.activeModeEnabled then none else newReadFailure os (p.enter os) := by
          rw [failure, show (p.enter os).uart = p.uart from rfl]
          cases p.uart.activeModeEnabled <;> simp [isOpen]
        rw [same]
        exact ends
    | _ => exact absurd transfers (by simp [Event.transfers])

/-- What writes nothing but responses, and does not fail, is clean. -/
theorem Clean.of_quiet {p q : Program β} {e : Event β} {os : Os β}
    (idle : p.uart.fd.isSome = true → e.transfers = false) (fine : failure p e = none)
    (unread : ¬ ReadsClosed p e) (quiet : Quiet (p.enter os) q) : Clean p e q := by
  refine ⟨fun isOpen transfers => ?_, ?_, unread, fun _ => quiet⟩
  · exact absurd (transfers.symm.trans (idle isOpen)) (by simp)
  · rw [quiet.errorNotifs, fine, Option.map_none, Option.toList_none, ite_self]
    rfl

/-- A pass that does not break reads from an open port. -/
theorem not_readsClosed {p : Program β} {e : Event β} (sound : ¬ Breaks p e) :
    ¬ ReadsClosed p e := by
  cases e with
  | request os command => exact id
  | process os =>
    rintro ⟨isOpen, q, hq, closed, reads⟩
    have wrote := processWrite_ends os (p.enter os)
    rw [hq] at wrote
    obtain ⟨ends, waits⟩ := wrote
    have isOpen' : (p.enter os).uart.fd.isSome = true := isOpen
    have fails := (ends.closed_iff isOpen').mp closed
    obtain ⟨errno, hfail⟩ := Option.isSome_iff_exists.mp fails
    rw [hfail] at ends waits
    have writing : p.uart.writeData.isSome = true ∧ (writeFailure os (p.enter os)).isSome = true := by
      unfold pendingFailure at fails
      split at fails
      · next writing => exact ⟨writing, fails⟩
      · exact absurd fails (by simp)
    -- the read that waited was answered, so it is active mode that reads
    have isActive : q.uart.activeModeEnabled = true :=
      reads.resolve_right (by rw [waits]; simp)
    exact sound ⟨isOpen, writing.1, ends.mode.symm.trans isActive, writing.2⟩

theorem handle_clean {p q : Program β} {e : Event β} (real : e.Real) (sound : ¬ Breaks p e)
    (h : p.handle e = .ok q) : Clean p e q := by
  by_cases transfer : p.uart.fd.isSome = true ∧ e.transfers = true
  · obtain ⟨isOpen, transfers⟩ := transfer
    obtain ⟨os, ends⟩ := handle_ends isOpen transfers sound h
    have opened : (p.enter os).uart.fd.isSome = true := isOpen
    refine ⟨fun _ _ => ends.closed_iff opened, ?_, not_readsClosed sound, fun closed => ?_⟩
    · exact ends.notified fun reason hreason => failure_real real hreason
    · rw [closed] at isOpen
      exact absurd isOpen (by simp)
  · have idle : p.uart.fd.isSome = true → e.transfers = false := fun isOpen => by
      have still : ¬ e.transfers = true := fun transfers => transfer ⟨isOpen, transfers⟩
      simpa using still
    have shut : e.transfers = true → p.uart.fd = none := fun transfers => by
      by_contra isOpen
      exact transfer ⟨Option.isSome_iff_ne_none.mpr isOpen, transfers⟩
    cases e with
    | process os =>
      have closed := shut rfl
      have quiet : Quiet (p.enter os) q := by
        have hh : (p.enter os).uartProcess os = .ok q := h
        rw [uartProcess, show (p.enter os).uart.fd = none from closed] at hh
        rw [← Except.ok.inj hh]
        exact .refl _
      refine .of_quiet idle ?_ (not_readsClosed sound) quiet
      rw [failure, processFailure, show (p.enter os).uart.fd = none from closed]
      rfl
    | request os command =>
      have quiet := handleElixirRequest_quiet os (p.enter os)
        (fun timeout (heq : command = .read timeout) => shut (by rw [heq]; rfl))
        (fun data timeout (heq : command = .write data timeout) => shut (by rw [heq]; rfl))
      rw [show (p.enter os).handleElixirRequest os command = .ok q from h] at quiet
      refine .of_quiet idle ?_ id quiet
      cases command with
      | write data timeout => rw [failure, shut rfl]
      | read timeout => simp [failure, shut rfl]
      | _ => rfl

/-- **A pass that breaks** sends two notifications. -/
theorem not_clean_of_breaks {p q : Program β} {e : Event β} (real : e.Real) (breaks : Breaks p e)
    (h : p.handle e = .ok q) : ¬ Clean p e q := by
  intro clean
  cases e with
  | request os command => exact breaks
  | process os =>
    obtain ⟨errno, hfail, -, broke⟩ := uartProcess_breaks breaks
    rw [show (p.enter os).uartProcess os = .ok q from h] at broke
    obtain ⟨r, first, second⟩ := broke
    have isActive : p.uart.activeModeEnabled = true := breaks.2.2.1
    have notified := clean.notified
    have real_errno : errno ≠ .zero := processFailure_real real hfail
    rw [second.notified, first.notified, first.mode, show failure p (.process os) = _ from hfail,
      errorNotifs_errorNotif real_errno, errorNotifs_errorNotif (by simp)] at notified
    simp only [show (p.enter os).uart.activeModeEnabled = true from isActive, isActive, if_true]
      at notified
    exact absurd (congrArg List.length notified) (by simp [enter])

theorem handle_clean_iff {p q : Program β} {e : Event β} (real : e.Real) (h : p.handle e = .ok q) :
    Clean p e q ↔ ¬ Breaks p e :=
  ⟨fun clean breaks => not_clean_of_breaks real breaks h clean, fun sound => handle_clean real sound h⟩

/-! ## Runs -/

/-- The event is handled as it should be. -/
def CleanStep (p : Program β) (e : Event β) : Prop := ∀ q, p.handle e = .ok q → Clean p e q

/-- **One notification for each failure.** In a run from any state, every event is clean exactly
when in no pass of the loop a pending write fails in active mode. -/
theorem everyStep_clean_iff {es : List (Event β)} (real : ∀ e ∈ es, e.Real) (p : Program β) :
    EveryStep step CleanStep p es ↔ EveryStep step (fun p e => ¬ Breaks p e) p es := by
  refine everyStep_congr (I := fun _ => True) (E := Event.Real) (fun _ _ _ _ _ _ _ _ => trivial)
    (fun p e p' out _ real took => ?_) real trivial
  obtain ⟨q, hq, -, -⟩ := step_eq_some took
  constructor
  · intro clean
    exact (handle_clean_iff real hq).mp (clean q hq)
  · intro sound q' hq'
    exact handle_clean real sound hq'

/-- A port is opened in the mode `active`, a write has to wait, and then fails. -/
def failedWrite (active : Bool) : List (Event UInt8) :=
  [.request { opened := fun _ => .ok (3, .raw) } (.open ttyS0 [.active active]),
    .request { writes := [.error .eagain] } (.write [1] 1000),
    .process { writes := [.error .eio] }]

/-- In passive mode the failure is not notified. -/
theorem everyStep_clean_iff_passive : EveryStep step CleanStep {} (failedWrite false) := by
  have real : ∀ e ∈ failedWrite false, e.Real := by
    simp [failedWrite, Event.Real, Os.Real]
  exact (everyStep_clean_iff real {}).mpr (.of_permitted (by decide))

/-- In active mode `EIO` and `EBADF` are. -/
theorem not_everyStep_clean_active : ¬ EveryStep step CleanStep {} (failedWrite true) := by
  intro clean
  obtain ⟨-, clean⟩ := clean _ _ rfl
  obtain ⟨-, clean⟩ := clean _ _ rfl
  obtain ⟨clean, -⟩ := clean _ _ rfl
  have notified := (clean _ rfl).notified
  exact absurd notified (by decide)

end Program

end CircuitsUart
