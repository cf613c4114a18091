import CircuitsUart.Port.Reasons
import CircuitsUart.Port.Writing

/-!
# What a write that times out leaves

A device that is not ready shows in four places: a `write(2)` that takes less than it was given
or fails with `EAGAIN`, in `uart_write` or in `continue_in_progress_write`. Three of them answer
the write and leave the port alone. In the fourth, `EAGAIN` in `uart_write`, the code looks at
the timeout before the errno, and without one goes the way of an unrecoverable error.

That the port is left alone is said of the future as well as of the state. A write that is no more
leaves its offset and its deadline behind in `struct uart`, and a reason in `last_error`; `Resumed`
is equality but for those, and since no event looks at them before it sets them, what comes next is
handled as if the write had never been.
-/

set_option autoImplicit false

namespace CircuitsUart

open Lib Port

namespace Program

variable {β : Type}

/-! ## Results that are no failure -/

/-- A result of `write(2)` on a device that is slow, at the most. -/
def Timely : Except Errno Nat → Prop
  | .ok _ => True
  | .error errno => errno = .eintr ∨ errno = .eagain

/-- The result of the first `write(2)` that is not interrupted. -/
def firstResult : List (Except Errno Nat) → Option (Except Errno Nat)
  | [] => none
  | .error .eintr :: rest => firstResult rest
  | result :: _ => some result

theorem retry_firstResult (errno : Errno) (results : List (Except Errno Nat)) :
    (retry errno results).map Prod.fst = firstResult results := by
  induction results generalizing errno with
  | nil => rfl
  | cons result rest ih =>
    unfold retry
    split
    · next h => exact absurd h (by simp)
    · next rest' h =>
      obtain ⟨rfl, rfl⟩ := List.cons.inj h
      exact ih .eintr
    · next e rest' other h =>
      obtain ⟨rfl, rfl⟩ := List.cons.inj h
      unfold firstResult
      split
      · next h => exact absurd h (by simp)
      · next h =>
        obtain ⟨h, -⟩ := List.cons.inj h
        exact absurd (Except.error.inj h) (by simpa using other)
      · next h =>
        obtain ⟨rfl, -⟩ := List.cons.inj h
        rfl
    · next n rest' h =>
      obtain ⟨rfl, rfl⟩ := List.cons.inj h
      rfl

theorem timely_firstResult {results : List (Except Errno Nat)} (timely : ∀ r ∈ results, Timely r)
    {result : Except Errno Nat} (h : firstResult results = some result) :
    (∃ n, result = .ok n) ∨ result = .error .eagain := by
  induction results with
  | nil => exact absurd h (by simp [firstResult])
  | cons r rest ih =>
    unfold firstResult at h
    split at h
    · exact absurd h (by simp)
    · next heq =>
      obtain ⟨rfl, rfl⟩ := List.cons.inj heq
      exact ih (fun r hr => timely r (List.mem_cons_of_mem _ hr)) h
    · next r' rest' other heq =>
      obtain ⟨rfl, rfl⟩ := List.cons.inj heq
      obtain rfl := Option.some.inj h
      have here := timely r List.mem_cons_self
      cases r with
      | ok n => exact .inl ⟨n, rfl⟩
      | error errno =>
        rcases here with rfl | rfl
        · exact (other rfl).elim
        · exact .inr rfl

/-- A `write` on an open port returns the first result. -/
theorem Writes.firstResult {os : Os β} {len : Nat} {p : Program β} {result : Except Errno Nat}
    {errno : Errno} (wrote : Writes os len p result errno) (isOpen : p.uart.fd ≠ none) :
    ∃ raw, Program.firstResult os.writes = some raw ∧ result = raw.map (min len) := by
  have returned := wrote.returned
  unfold Program.write at returned
  split at returned
  · next closed => exact absurd closed isOpen
  · split at returned
    · exact absurd returned (by simp)
    · next raw errno' hraw =>
      obtain ⟨rfl, -⟩ := Prod.mk.inj (Except.ok.inj returned)
      refine ⟨raw, ?_, rfl⟩
      rw [← retry_firstResult p.dev.errno, hraw]
      rfl

/-- On a device that is slow, at the most, a `write` fails only because the device is busy. -/
theorem Writes.busy {os : Os β} {len : Nat} {p : Program β} {e errno : Errno}
    (wrote : Writes os len p (.error e) errno) (isOpen : p.uart.fd ≠ none)
    (timely : ∀ r ∈ os.writes, Timely r) :
    e = .eagain ∧ Program.firstResult os.writes = some (.error .eagain) := by
  obtain ⟨raw, hraw, same⟩ := wrote.firstResult isOpen
  rcases timely_firstResult timely hraw with ⟨n, rfl⟩ | rfl
  · exact absurd same (by simp [Except.map])
  · exact ⟨Except.error.inj same, hraw⟩

/-! ## What the write leaves -/

/-- Nothing has become of the port but a write that was answered `:ok` or
`{:error, :eagain}`, or that is still to be. -/
structure Survives (p r : Program β) : Prop where
  uart : r.uart = { p.uart with
    writeData := r.uart.writeData
    writeOffset := r.uart.writeOffset
    writeCompletionDeadline := r.uart.writeCompletionDeadline }
  tty : r.dev.tty = p.dev.tty
  config : r.currentConfig = p.currentConfig
  told : (r.uart.writeData ≠ none ∧ r.out = p.out) ∨
    r.uart.writeData = none ∧
      (r.out = p.out ++ [.response .ok] ∨ r.out = p.out ++ [.response (.error .eagain)])

theorem Survives.writeLater (os : Os β) (p : Program β) (errno : Errno) (data : List UInt8)
    (offset : Nat) (timeout : Int) :
    Survives p ((p.withErrno errno).writeLater os data offset timeout) where
  uart := rfl
  tty := rfl
  config := rfl
  told := .inl ⟨by simp [Program.writeLater], rfl⟩

theorem Survives.written {p : Program β} (idle : p.uart.writeData = none) (errno : Errno) :
    Survives p ((p.withErrno errno).handleWriteCompleted true) where
  uart := rfl
  tty := rfl
  config := rfl
  told := .inr ⟨idle, .inl rfl⟩

theorem Survives.expired {p : Program β} (idle : p.uart.writeData = none) (errno : Errno) :
    Survives p (((p.withErrno errno).record .eagain).handleWriteCompleted false) where
  uart := rfl
  tty := rfl
  config := rfl
  told := .inr ⟨idle, .inr rfl⟩

/-- `uart_write`, but for the fourth place. -/
theorem Survives.begun {os : Os β} {data : List UInt8} {timeout : Int} {p q : Program β}
    (isOpen : p.uart.fd ≠ none) (timely : ∀ r ∈ os.writes, Timely r)
    (not_fourth : ¬ (timeout = 0 ∧ firstResult os.writes = some (.error .eagain)))
    (h : p.uartWrite os data timeout = .ok q) : Survives p q := by
  have yields := uartWrite_yields os data timeout p
  rw [h] at yields
  obtain ⟨idle, ends⟩ := yields
  cases ends with
  | refused => exact .writeLater os p .eagain data 0 timeout
  | short => exact .writeLater os p _ data _ timeout
  | expired => exact .expired idle _
  | written => exact .written idle _
  | broke wrote ended =>
    -- busy, and without a timeout: that is the fourth place
    obtain ⟨rfl, hfirst⟩ := wrote.busy isOpen timely
    have no_time : timeout = 0 := by
      by_contra some_time
      exact ended ⟨rfl, some_time⟩
    exact absurd ⟨no_time, hfirst⟩ not_fourth

/-- The fourth place: the port is closed. -/
theorem uartWrite_closes {os : Os β} {p : Program β} (data : List UInt8) (isOpen : p.uart.fd ≠ none)
    (idle : p.uart.writeData = none) (busy : firstResult os.writes = some (.error .eagain)) :
    ∃ q, p.uartWrite os data 0 = .ok q ∧ q.uart.fd = none := by
  have hretry := retry_firstResult p.dev.errno os.writes
  rw [busy] at hretry
  obtain ⟨⟨raw, errno⟩, hraw, hfst⟩ := Option.map_eq_some_iff.mp hretry
  obtain rfl : raw = .error .eagain := hfst
  obtain ⟨fd, hfd⟩ := Option.ne_none_iff_exists'.mp isOpen
  have hw : p.write os data.length = .ok (.error .eagain, p.withErrno errno) := by
    simp only [Program.write, hfd, hraw]
    rfl
  refine ⟨((p.withErrno errno).recordErrno.handleWriteCompleted false).uartCloseOnError .eagain,
    ?_, ?_⟩
  · rw [uartWrite, if_neg (by simp [idle]), hw]
    rfl
  · rw [uart_uartCloseOnError]

/-- An attempt that took something, or nothing. -/
theorem Survives.moved {p q : Program β} (k : Survives p q) (errno : Errno) (offset : Nat) :
    Survives p { q.withErrno errno with uart := { q.uart with writeOffset := offset } } where
  uart := by
    rw [k.uart]
  tty := k.tty
  config := k.config
  told := k.told

theorem Survives.under_way {p q : Program β} (k : Survives p q) (h : q.uart.writeData ≠ none) :
    q.out = p.out := by
  rcases k.told with ⟨-, hout⟩ | ⟨hnone, -⟩
  · exact hout
  · exact absurd hnone h

theorem Survives.writeDone {p q : Program β} (k : Survives p q) (h : q.uart.writeData ≠ none) :
    Survives p (q.writeDone true) where
  uart := by
    rw [uart_writeDone, k.uart]
  tty := k.tty
  config := k.config
  told := by
    refine .inr ⟨by simp, .inl ?_⟩
    rw [← k.under_way h]
    rfl

theorem Survives.checkWriteDeadline {p q : Program β} (os : Os β) (k : Survives p q)
    (h : q.uart.writeData ≠ none) : Survives p (q.checkWriteDeadline os) := by
  unfold Program.checkWriteDeadline
  split
  · refine ⟨?_, k.tty, k.config, .inr ⟨by simp, .inr ?_⟩⟩
    · rw [uart_writeDone, uart_record, k.uart]
    · rw [← k.under_way h]
      rfl
  · exact k

/-- `continue_in_progress_write`. -/
theorem Survives.step {os : Os β} {p q q' : Program β} {log : List Writing.Attempt}
    (k : Survives p q) (isOpen : p.uart.fd ≠ none) (timely : ∀ r ∈ os.writes, Timely r)
    (h : Writing.step q os = some (q', log)) : Survives p q' := by
  unfold Writing.step at h
  split at h
  · exact absurd h (by simp)
  · next data hdata =>
    have under_way : q.uart.writeData ≠ none := by simp [hdata]
    have isOpen' : q.uart.fd ≠ none := by
      rw [k.uart]
      exact isOpen
    split at h
    · next q₁ hq =>
      obtain ⟨rfl, -⟩ := Prod.mk.inj (Option.some.inj h)
      have yields := (continueInProgressWrite_cases os data q).yields
      rw [hq] at yields
      have ends : ContinueEnds os data q q₁ := yields
      cases ends with
      | @written errno => exact (k.moved errno q.uart.writeOffset).writeDone under_way
      | @short n errno => exact (k.moved errno _).checkWriteDeadline os under_way
      | refused => exact (k.moved .eagain q.uart.writeOffset).checkWriteDeadline os under_way
      | broke wrote other => exact absurd (wrote.busy isOpen' timely).1 other
    · exact absurd h (by simp)

/-! ## What comes next -/

/-- The program with what another write would have left behind. -/
def restale (p : Program β) (offset : Nat) (completion : UInt64) : Program β :=
  { p with uart := { p.uart with writeOffset := offset, writeCompletionDeadline := completion } }

/-- The same but for the last error, and for the offset and the deadline of a write when none
is under way. -/
def Resumed (p q : Program β) : Prop :=
  Alike p q ∨ p.uart.writeData = none ∧ ∃ offset completion, Alike (p.restale offset completion) q

theorem Resumed.trans_alike {p q r : Program β} (h : Resumed p q) (k : Alike q r) : Resumed p r := by
  obtain ⟨reason, rfl⟩ := k
  rcases h with ⟨reason', rfl⟩ | ⟨idle, offset, completion, reason', rfl⟩
  · exact .inl ⟨reason, rfl⟩
  · exact .inr ⟨idle, offset, completion, reason, rfl⟩

theorem Related.resumed {x y z : Except Stop (Program β)} (h : Related Resumed x y)
    (k : Related Alike y z) : Related Resumed x z := by
  rcases y with stop | q
  · rcases x with stop' | p
    · rcases z with stop'' | r
      · exact Eq.trans h k
      · exact False.elim k
    · exact False.elim h
  · rcases x with stop' | p
    · exact False.elim h
    · rcases z with stop'' | r
      · exact False.elim k
      · exact Resumed.trans_alike h k

section restale

variable {p : Program β} (idle : p.uart.writeData = none) (offset : Nat) (completion : UInt64)

include idle

theorem resumed_restale : Resumed p (p.restale offset completion) :=
  .inr ⟨idle, offset, completion, .refl _⟩

theorem restale_uartClose :
    (p.restale offset completion).uartClose = p.uartClose.restale offset completion := by
  have write : p.cancelWrite = p := by simp [cancelWrite, idle]
  have write' : (p.restale offset completion).cancelWrite = p.restale offset completion := by
    simp [cancelWrite, restale, idle]
  have read : (p.restale offset completion).cancelRead = p.cancelRead.restale offset completion := by
    unfold cancelRead restale
    dsimp only
    split <;> rfl
  unfold uartClose
  rw [write, write', read]
  rfl

theorem restale_uartCloseOnError (reason : Errno) :
    (p.restale offset completion).uartCloseOnError reason =
      (p.uartCloseOnError reason).restale offset completion := by
  unfold uartCloseOnError
  rw [restale_uartClose idle]
  dsimp only
  show (if p.uartClose.uart.activeModeEnabled then _ else _) = _
  by_cases active : p.uartClose.uart.activeModeEnabled
  · rw [if_pos active, if_pos active]
    unfold handleNotifyRead
    split <;> rfl
  · rw [if_neg active, if_neg active]

omit idle in
theorem restale_write (os : Os β) (len : Nat) :
    Related (fun r s => r.1 = s.1 ∧ s.2 = r.2.restale offset completion ∧ r.2.uart = p.uart)
      (p.write os len) ((p.restale offset completion).write os len) := by
  have fd : (p.restale offset completion).uart.fd = p.uart.fd := rfl
  have errno : (p.restale offset completion).dev.errno = p.dev.errno := rfl
  unfold Program.write
  rw [fd, errno]
  cases p.uart.fd with
  | none => exact ⟨rfl, rfl, rfl⟩
  | some _ =>
    dsimp only
    cases retry p.dev.errno os.writes with
    | none => exact rfl
    | some r => exact ⟨rfl, rfl, rfl⟩

omit idle in
theorem restale_read (os : Os β) :
    Related (fun r s => r.1 = s.1 ∧ s.2 = r.2.restale offset completion ∧ r.2.uart = p.uart)
      (p.read os) ((p.restale offset completion).read os) := by
  have fd : (p.restale offset completion).uart.fd = p.uart.fd := rfl
  have errno : (p.restale offset completion).dev.errno = p.dev.errno := rfl
  unfold Program.read
  rw [fd, errno]
  cases p.uart.fd with
  | none => exact ⟨rfl, rfl, rfl⟩
  | some _ =>
    dsimp only
    cases retry p.dev.errno os.reads with
    | none => exact rfl
    | some r => exact ⟨rfl, rfl, rfl⟩

theorem restale_uartWrite (os : Os β) (data : List UInt8) (timeout : Int) :
    Related Resumed (p.uartWrite os data timeout)
      ((p.restale offset completion).uartWrite os data timeout) := by
  have idle' : (p.restale offset completion).uart.writeData = none := idle
  rw [uartWrite, uartWrite, if_neg (by simp [idle]), if_neg (by simp [idle'])]
  refine (restale_write offset completion os data.length).bind ?_
  rintro ⟨result, r⟩ ⟨_, _⟩ ⟨rfl, rfl, huart⟩
  have hidle : r.uart.writeData = none := by
    rw [huart]
    exact idle
  cases result with
  | error errno =>
    dsimp only
    split
    · exact .inl (.refl _)
    · have closed : ((r.restale offset completion).recordErrno.handleWriteCompleted
          false).uartCloseOnError errno =
          ((r.recordErrno.handleWriteCompleted false).uartCloseOnError errno).restale offset
            completion :=
        restale_uartCloseOnError (p := r.recordErrno.handleWriteCompleted false)
          (by simpa using hidle) offset completion errno
      show Resumed _ _
      rw [closed]
      exact resumed_restale (by simp) offset completion
  | ok written =>
    dsimp only
    split
    · split
      · exact .inl (.refl _)
      · exact resumed_restale (p := (r.record .eagain).handleWriteCompleted false) hidle offset
          completion
    · exact resumed_restale (p := r.handleWriteCompleted true) hidle offset completion

theorem restale_readLater (os : Os β) (timeout : Int) :
    Resumed (p.readLater os timeout) ((p.restale offset completion).readLater os timeout) := by
  unfold readLater
  split
  · exact resumed_restale (p := p.handleReadCompleted (some [])) idle offset completion
  · exact .inr ⟨idle, offset, completion, .refl _⟩

theorem restale_uartRead (os : Os β) (timeout : Int) :
    Related Resumed (p.uartRead os timeout)
      ((p.restale offset completion).uartRead os timeout) := by
  unfold uartRead
  by_cases active : p.uart.activeModeEnabled
  · have active' : (p.restale offset completion).uart.activeModeEnabled := active
    rw [if_pos active, if_pos active']
    exact resumed_restale (p := (p.record .einval).handleReadCompleted none) idle offset completion
  have active' : ¬ (p.restale offset completion).uart.activeModeEnabled := active
  rw [if_neg active, if_neg active']
  by_cases waits : p.uart.readPending
  · have waits' : (p.restale offset completion).uart.readPending := waits
    rw [if_pos waits, if_pos waits']
    exact rfl
  have waits' : ¬ (p.restale offset completion).uart.readPending := waits
  rw [if_neg waits, if_neg waits']
  refine (restale_read offset completion os).bind ?_
  rintro ⟨result, r⟩ ⟨_, _⟩ ⟨rfl, rfl, huart⟩
  have hidle : r.uart.writeData = none := by
    rw [huart]
    exact idle
  cases result with
  | ok bytes =>
    cases bytes with
    | nil => exact restale_readLater hidle offset completion os timeout
    | cons b bs =>
      exact resumed_restale (p := r.handleReadCompleted (some (b :: bs))) hidle offset completion
  | error errno =>
    dsimp only
    split
    · exact restale_readLater hidle offset completion os timeout
    · have closed : ((r.restale offset completion).recordErrno.handleReadCompleted
          none).uartCloseOnError errno =
          ((r.recordErrno.handleReadCompleted none).uartCloseOnError errno).restale offset
            completion :=
        restale_uartCloseOnError (p := r.recordErrno.handleReadCompleted none)
          (by simpa using hidle) offset completion errno
      show Resumed _ _
      rw [closed]
      exact resumed_restale (by simp) offset completion

theorem restale_whenOpen {go : Program β → Except Stop (Program β)}
    (h : Related Resumed (go p) (go (p.restale offset completion))) :
    Related Resumed (p.whenOpen go) ((p.restale offset completion).whenOpen go) := by
  unfold whenOpen
  show Related Resumed _ (if p.uartIsOpen then _ else _)
  split
  · exact h
  · exact resumed_restale (p := p.sendErrorResponse .ebadf) idle offset completion

theorem restale_handleWrite (os : Os β) (data : List UInt8) (timeout : Nat) :
    Related Resumed (p.handleWrite os data timeout)
      ((p.restale offset completion).handleWrite os data timeout) := by
  apply restale_whenOpen idle
  cases decodeTimeout timeout with
  | error stop => exact rfl
  | ok t => exact restale_uartWrite idle offset completion os data t

theorem restale_handleRead (os : Os β) (timeout : Nat) :
    Related Resumed (p.handleRead os timeout)
      ((p.restale offset completion).handleRead os timeout) := by
  apply restale_whenOpen idle
  cases decodeTimeout timeout with
  | error stop => exact rfl
  | ok t => exact restale_uartRead idle offset completion os t

end restale

/-- A port that a write which is no more left alone, seen from the next event on. -/
theorem Survives.enter {p r : Program β} (k : Survives p r) (idle : p.uart.writeData = none)
    (gone : r.uart.writeData = none) (os : Os β) :
    Alike ((p.enter os).restale r.uart.writeOffset r.uart.writeCompletionDeadline) (r.enter os) := by
  obtain ⟨uart, tty, config, -⟩ := k
  refine ⟨r.lastError, ?_⟩
  rw [gone, ← idle] at uart
  have dev : { r.dev with errno := os.errno } = { p.dev with errno := os.errno } := by
    dsimp only
    rw [tty]
  unfold Program.enter
  rw [dev, config, uart]
  rfl

/-- The write has left the port as it was, and the next write or read finds it so. -/
structure Undisturbed (p r : Program β) : Prop where
  survives : Survives p r
  next_write : r.uart.writeData = none → ∀ (os : Os β) (data : List UInt8) (timeout : Nat),
    Related Resumed (p.handle (.request os (.write data timeout)))
      (r.handle (.request os (.write data timeout)))
  next_read : r.uart.writeData = none → ∀ (os : Os β) (timeout : Nat),
    Related Resumed (p.handle (.request os (.read timeout)))
      (r.handle (.request os (.read timeout)))

theorem Survives.undisturbed {p r : Program β} (k : Survives p r)
    (idle : p.uart.writeData = none) : Undisturbed p r where
  survives := k
  next_write gone os data timeout := by
    apply (restale_handleWrite (p := p.enter os) idle _ _ os data timeout).resumed
    exact @handleElixirRequest_alike _ os (.write data timeout) _ _ (k.enter idle gone os) id
  next_read gone os timeout := by
    apply (restale_handleRead (p := p.enter os) idle _ _ os timeout).resumed
    exact @handleElixirRequest_alike _ os (.read timeout) _ _ (k.enter idle gone os) id

/-- **When a write that times out leaves the port alone.** Begin a write on an open port, in
either mode, and let every `write(2)` be short, interrupted or refused with `EAGAIN`, for as
long as the write is under way. Whatever the clock, the port keeps its descriptor, its mode and
its read, the write ends, if it does, with `:ok` or `{:error, :eagain}` and nothing else is
sent, and the next write or read is handled as if there had been none: exactly when it is not
the case that the timeout is 0 and the first `write(2)` is refused. -/
theorem write_undisturbed_iff {p : Program β} (isOpen : p.uart.fd ≠ none)
    (idle : p.uart.writeData = none) {os : Os β} (timely : ∀ r ∈ os.writes, Timely r)
    (data : List UInt8) (timeout : Int) :
    (∀ q, p.uartWrite os data timeout = .ok q → ∀ log r,
        Reach Writing.step (fun _ _ os => ∀ r ∈ os.writes, Timely r) q log r → Undisturbed p r) ↔
      ¬ (timeout = 0 ∧ firstResult os.writes = some (.error .eagain)) := by
  constructor
  · intro undisturbed ⟨no_time, busy⟩
    subst no_time
    -- at the fourth place the descriptor is gone before the write is over
    obtain ⟨q, hq, closed⟩ := uartWrite_closes data isOpen idle busy
    have uart := (undisturbed q hq [] q .start).survives.uart
    rw [uart] at closed
    exact isOpen closed
  · intro not_fourth q hq log r run
    apply Survives.undisturbed _ idle
    -- by induction on the passes of the loop: each leaves what `p` had
    apply run.invariant (I := fun _ r => Survives p r)
    · exact .begun isOpen timely not_fourth hq
    · intro _ _ _ _ _ k timely took
      exact k.step isOpen timely took

/-- An open port in active mode. -/
def listeningOn (fd : Nat) : Program UInt8 := { uart := { fd := some fd } }

/-- A part is written, and then the time is up. -/
theorem write_undisturbed_short :
    let os : Os UInt8 := { writes := [.error .eintr, .ok 1] }
    ∃ q, (listeningOn 3).uartWrite os [65, 66] 0 = .ok q ∧ Undisturbed (listeningOn 3) q := by
  intro os
  have timely : ∀ r ∈ os.writes, Timely r := by
    intro r hr
    rcases List.mem_cons.mp hr with rfl | hr
    · exact .inl rfl
    · obtain rfl := List.mem_singleton.mp hr
      trivial
  have undisturbed := (write_undisturbed_iff (p := listeningOn 3) (by simp [listeningOn]) rfl timely
    [65, 66] 0).mpr fun fourth => absurd fourth.2 (by simp [os, firstResult])
  exact ⟨_, rfl, undisturbed _ rfl [] _ .start⟩

/-- A full buffer and no timeout: the port is closed, and the application is told of an error. -/
theorem write_closes :
    ∃ q, (listeningOn 3).uartWrite { writes := [.error .eagain] } [65] 0 = .ok q ∧
      q.uart.fd = none ∧ q.out = [.response (.error .eagain), .notif (.error .eagain)] ∧
      ¬ Undisturbed (listeningOn 3) q := by
  refine ⟨_, rfl, rfl, rfl, fun undisturbed => ?_⟩
  have uart := undisturbed.survives.uart
  exact absurd (congrArg Uart.fd uart) (by simp [listeningOn, uart_uartCloseOnError])

end Program

end CircuitsUart
