import CircuitsUart.Port.Opening

/-!
# How a write and a read end

The ways in which `uart_write`, `continue_in_progress_write`, `uart_read` and `process_read` end,
each with what `write(2)` or `read(2)` returned and what that leaves. `read` and `write` change
nothing of the program but `errno`.

Four inductive predicates, one for each function, with a constructor for each way out. Everything
that holds across events (one response for each request, the order of the data, what is on the
wire, which reason is given) is proved from them, so none of those proofs unfolds the functions
and none has to deal with the retry loop: a constructor has the result after the retries.

Two ways in which a function can leave no state are kept apart, `errx` and a retry that goes on
for ever. `Returns` says that the first does not happen, and what is returned unless the second
does; `Yields` (in `Port.Opening`) is the weaker statement that allows both.
-/

set_option autoImplicit false

namespace CircuitsUart

open Port

namespace Program

variable {β : Type}

/-! ## Computations that do not end in `errx` -/

/-- What a computation that does not end in `errx` returns. -/
def Returns {α : Type} (Q : α → Prop) : Except Stop α → Prop
  | .ok a => Q a
  | .error .blocked => True
  | .error (.errx _) => False

theorem Returns.bind {α γ : Type} {Q : α → Prop} {R : γ → Prop} {x : Except Stop α}
    {f : α → Except Stop γ} (hx : Returns Q x) (hf : ∀ a, Q a → Returns R (f a)) :
    Returns R (x >>= f) := by
  cases x with
  | ok a => exact hf a hx
  | error stop =>
    cases stop with
    | blocked => trivial
    | errx message => exact hx

theorem Returns.mono {α : Type} {Q R : α → Prop} {x : Except Stop α} (hx : Returns Q x)
    (h : ∀ a, Q a → R a) : Returns R x := by
  cases x with
  | ok a => exact h a hx
  | error stop =>
    cases stop with
    | blocked => trivial
    | errx message => exact hx

theorem Returns.yields {α : Type} {Q : α → Prop} {x : Except Stop α} (h : Returns Q x) :
    Yields Q x := by
  cases x with
  | ok a => exact h
  | error stop => trivial

/-! ## The two system calls -/

/-- The program after a system call that set `errno`. -/
def withErrno (p : Program β) (errno : Errno) : Program β :=
  { p with dev := { p.dev with errno := errno } }

@[simp] theorem uart_withErrno (p : Program β) (errno : Errno) :
    (p.withErrno errno).uart = p.uart := rfl

/-- `read(2)` returned `result` and left `errno`. -/
structure Reads (os : Os β) (p : Program β) (result : Except Errno (List β)) (errno : Errno) :
    Prop where
  returned : p.read os = .ok (result, p.withErrno errno)
  left : ∀ e, result = .error e → errno = e

/-- `write(2)` of `len` bytes returned `result` and left `errno`. -/
structure Writes (os : Os β) (len : Nat) (p : Program β) (result : Except Errno Nat)
    (errno : Errno) : Prop where
  returned : p.write os len = .ok (result, p.withErrno errno)
  left : ∀ e, result = .error e → errno = e
  le : ∀ n, result = .ok n → n ≤ len

/-- An error that a call is not repeated for is in `errno`. -/
theorem retry_left {α : Type} {errno errno' : Errno} {results : List (Except Errno α)}
    {r : Except Errno α} (h : retry errno results = some (r, errno')) :
    ∀ e, r = .error e → errno' = e := by
  intro e he
  subst he
  induction results generalizing errno with
  | nil => exact absurd h (by simp [retry])
  | cons x rest ih =>
    unfold retry at h
    split at h
    · exact absurd h (by simp)
    · next heq =>
      obtain ⟨-, rfl⟩ := List.cons.inj heq
      exact ih h
    · obtain ⟨hr, rfl⟩ := Prod.mk.inj (Option.some.inj h)
      exact Except.error.inj hr
    · exact absurd h (by simp)

theorem read_returns (os : Os β) (p : Program β) :
    Returns (fun r => ∃ errno, r.2 = p.withErrno errno ∧ Reads os p r.1 errno) (p.read os) := by
  cases h : p.read os with
  | ok r =>
    have returned := h
    unfold read at h
    split at h
    · obtain rfl := Except.ok.inj h
      exact ⟨.ebadf, rfl, returned, fun e he => Except.error.inj he⟩
    · split at h
      · exact absurd h (by simp)
      · next hretry =>
        obtain rfl := Except.ok.inj h
        exact ⟨_, rfl, returned, retry_left hretry⟩
  | error stop =>
    unfold read at h
    split at h
    · exact absurd h (by simp)
    · split at h
      · obtain rfl := Except.error.inj h
        trivial
      · exact absurd h (by simp)

theorem write_returns (os : Os β) (len : Nat) (p : Program β) :
    Returns (fun r => ∃ errno, r.2 = p.withErrno errno ∧ Writes os len p r.1 errno)
      (p.write os len) := by
  cases h : p.write os len with
  | ok r =>
    have returned := h
    unfold write at h
    split at h
    · obtain rfl := Except.ok.inj h
      exact ⟨.ebadf, rfl, returned, fun e he => Except.error.inj he, fun n hn => absurd hn (by simp)⟩
    · split at h
      · exact absurd h (by simp)
      · next raw errno hretry =>
        obtain rfl := Except.ok.inj h
        cases raw with
        | ok n =>
          refine ⟨_, rfl, returned, fun e he => absurd he (by simp [Except.map]), fun n' hn => ?_⟩
          obtain rfl := Except.ok.inj hn
          exact Nat.min_le_left len n
        | error e =>
          exact ⟨_, rfl, returned, retry_left hretry, fun n hn => absurd hn (by simp [Except.map])⟩
  | error stop =>
    unfold write at h
    split at h
    · exact absurd h (by simp)
    · split at h
      · obtain rfl := Except.error.inj h
        trivial
      · exact absurd h (by simp)

/-! ## Writing -/

/-- How `uart_write` ends. -/
inductive WriteEnds (os : Os β) (data : List UInt8) (timeout : Int) (p : Program β) :
    Program β → Prop
  | refused (wrote : Writes os data.length p (.error .eagain) .eagain) (some_time : timeout ≠ 0) :
      WriteEnds os data timeout p ((p.withErrno .eagain).writeLater os data 0 timeout)
  | broke {e : Errno} (wrote : Writes os data.length p (.error e) e)
      (ended : ¬ (e = .eagain ∧ timeout ≠ 0)) :
      WriteEnds os data timeout p
        (((p.withErrno e).recordErrno.handleWriteCompleted false).uartCloseOnError e)
  | short {n : Nat} {errno : Errno} (wrote : Writes os data.length p (.ok n) errno)
      (short : n ≠ data.length) (some_time : timeout ≠ 0) :
      WriteEnds os data timeout p ((p.withErrno errno).writeLater os data n timeout)
  | expired {n : Nat} {errno : Errno} (wrote : Writes os data.length p (.ok n) errno)
      (short : n ≠ data.length) (no_time : timeout = 0) :
      WriteEnds os data timeout p (((p.withErrno errno).record .eagain).handleWriteCompleted false)
  | written {errno : Errno} (wrote : Writes os data.length p (.ok data.length) errno) :
      WriteEnds os data timeout p ((p.withErrno errno).handleWriteCompleted true)

theorem uartWrite_cases {p : Program β} (idle : p.uart.writeData = none) (os : Os β)
    (data : List UInt8) (timeout : Int) :
    Returns (WriteEnds os data timeout p) (p.uartWrite os data timeout) := by
  unfold uartWrite
  rw [if_neg (by simp [idle])]
  refine (write_returns os data.length p).bind ?_
  intro ⟨written, _⟩ ⟨errno, same, wrote⟩
  obtain rfl := same
  cases written with
  | error e =>
    obtain rfl := wrote.left e rfl
    dsimp only
    split
    · next waits =>
      obtain ⟨rfl, some_time⟩ := waits
      exact .refused wrote some_time
    · next ended => exact .broke wrote ended
  | ok n =>
    dsimp only
    split
    · next short =>
      split
      · next some_time => exact .short wrote short some_time
      · next no_time => exact .expired wrote short (not_not.mp no_time)
    · next whole =>
      obtain rfl := not_not.mp whole
      exact .written wrote

/-- A write that is under way is no reason for `uart_write` to return. -/
theorem uartWrite_yields (os : Os β) (data : List UInt8) (timeout : Int) (p : Program β) :
    Yields (fun q => p.uart.writeData = none ∧ WriteEnds os data timeout p q)
      (p.uartWrite os data timeout) := by
  cases under_way : p.uart.writeData with
  | none => exact (uartWrite_cases under_way os data timeout).yields.mono fun _ ends => ⟨rfl, ends⟩
  | some data' =>
    unfold uartWrite
    rw [if_pos (by simp [under_way])]
    trivial

/-- How `continue_in_progress_write` ends. -/
inductive ContinueEnds (os : Os β) (data : List UInt8) (p : Program β) : Program β → Prop
  | written {errno : Errno} (wrote : Writes os (data.length - p.uart.writeOffset) p
        (.ok (data.length - p.uart.writeOffset)) errno) :
      ContinueEnds os data p ((p.withErrno errno).writeDone true)
  | short {n : Nat} {errno : Errno}
      (wrote : Writes os (data.length - p.uart.writeOffset) p (.ok n) errno)
      (short : n ≠ data.length - p.uart.writeOffset) :
      ContinueEnds os data p (checkWriteDeadline os { p.withErrno errno with
        uart := { p.uart with writeOffset := p.uart.writeOffset + n } })
  | broke {e : Errno} (wrote : Writes os (data.length - p.uart.writeOffset) p (.error e) e)
      (other : e ≠ .eagain) :
      ContinueEnds os data p (((p.withErrno e).recordErrno.writeDone false).uartCloseOnError e)
  | refused
      (wrote : Writes os (data.length - p.uart.writeOffset) p (.error .eagain) .eagain) :
      ContinueEnds os data p ((p.withErrno .eagain).checkWriteDeadline os)

theorem continueInProgressWrite_cases (os : Os β) (data : List UInt8) (p : Program β) :
    Returns (ContinueEnds os data p) (p.continueInProgressWrite os data) := by
  unfold continueInProgressWrite
  refine (write_returns os (data.length - p.uart.writeOffset) p).bind ?_
  intro ⟨written, _⟩ ⟨errno, same, wrote⟩
  obtain rfl := same
  cases written with
  | ok n =>
    dsimp only
    split
    · next whole =>
      obtain rfl := whole
      exact .written wrote
    · next short => exact .short wrote short
  | error e =>
    obtain rfl := wrote.left e rfl
    dsimp only
    split
    · next other => exact .broke wrote other
    · next busy =>
      obtain rfl := not_not.mp busy
      exact .refused wrote

/-! ## Reading -/

/-- How `uart_read` ends. -/
inductive ReadEnds (os : Os β) (timeout : Int) (p : Program β) : Program β → Prop
  | active (active : p.uart.activeModeEnabled = true) :
      ReadEnds os timeout p ((p.record .einval).handleReadCompleted none)
  | data {b : β} {bs : List β} {errno : Errno} (passive : p.uart.activeModeEnabled = false)
      (reads : Reads os p (.ok (b :: bs)) errno) :
      ReadEnds os timeout p ((p.withErrno errno).handleReadCompleted (some (b :: bs)))
  | later {result : Except Errno (List β)} {errno : Errno}
      (passive : p.uart.activeModeEnabled = false) (reads : Reads os p result errno)
      (nothing : result = .ok [] ∨ result = .error .eagain) :
      ReadEnds os timeout p ((p.withErrno errno).readLater os timeout)
  | broke {e : Errno} (passive : p.uart.activeModeEnabled = false)
      (reads : Reads os p (.error e) e) (other : e ≠ .eagain) :
      ReadEnds os timeout p
        (((p.withErrno e).recordErrno.handleReadCompleted none).uartCloseOnError e)

theorem uartRead_cases {p : Program β} (idle : p.uart.readPending = false) (os : Os β)
    (timeout : Int) : Returns (ReadEnds os timeout p) (p.uartRead os timeout) := by
  unfold uartRead
  cases active : p.uart.activeModeEnabled with
  | true => exact .active active
  | false =>
    rw [if_neg (by simp), if_neg (by simp [idle])]
    refine (read_returns os p).bind ?_
    intro ⟨bytesRead, _⟩ ⟨errno, same, reads⟩
    obtain rfl := same
    match bytesRead with
    | .ok (b :: bs) => exact .data active reads
    | .ok [] => exact .later active reads (.inl rfl)
    | .error e =>
      dsimp only
      split
      · next busy =>
        subst busy
        exact .later active reads (.inr rfl)
      · next other =>
        obtain rfl := reads.left e rfl
        exact .broke active reads other

/-- A read that is pending is no reason for `uart_read` to return. -/
theorem uartRead_yields (os : Os β) (timeout : Int) (p : Program β) :
    Yields (ReadEnds os timeout p) (p.uartRead os timeout) := by
  cases waits : p.uart.readPending with
  | false => exact (uartRead_cases waits os timeout).yields
  | true =>
    unfold uartRead
    cases active : p.uart.activeModeEnabled with
    | true => exact .active active
    | false =>
      rw [if_neg (by simp), if_pos waits]
      trivial

/-- How `process_read` ends. -/
inductive ProcessEnds (os : Os β) (p : Program β) : Program β → Prop
  | notified {b : β} {bs : List β} {errno : Errno} (active : p.uart.activeModeEnabled = true)
      (reads : Reads os p (.ok (b :: bs)) errno) :
      ProcessEnds os p ((p.withErrno errno).handleNotifyRead .zero (b :: bs))
  | data {b : β} {bs : List β} {errno : Errno} (passive : ¬ p.uart.activeModeEnabled = true)
      (reads : Reads os p (.ok (b :: bs)) errno) :
      ProcessEnds os p ((p.withErrno errno).readDone (some (b :: bs)))
  | ended {errno : Errno} (reads : Reads os p (.ok []) errno) :
      ProcessEnds os p ((p.withErrno errno).readFailed .eio)
  | expired (reads : Reads os p (.error .eagain) .eagain) (waits : p.uart.readPending = true) :
      ProcessEnds os p ((p.withErrno .eagain).readDone (some []))
  | refused (reads : Reads os p (.error .eagain) .eagain) :
      ProcessEnds os p (p.withErrno .eagain)
  | broke {e : Errno} (reads : Reads os p (.error e) e) (other : e ≠ .eagain) :
      ProcessEnds os p ((p.withErrno e).readFailed e)

theorem processRead_cases (os : Os β) (p : Program β) :
    Returns (ProcessEnds os p) (p.processRead os) := by
  unfold processRead
  refine (read_returns os p).bind ?_
  intro ⟨bytesRead, _⟩ ⟨errno, same, reads⟩
  obtain rfl := same
  match bytesRead with
  | .ok (b :: bs) =>
    dsimp only
    split
    · next active => exact .notified active reads
    · next passive => exact .data passive reads
  | .ok [] => exact .ended reads
  | .error e =>
    obtain rfl := reads.left e rfl
    dsimp only
    split
    · next busy =>
      subst busy
      split
      · next late => exact .expired reads late.1
      · exact .refused reads
    · next other => exact .broke reads other

end Program

end CircuitsUart
