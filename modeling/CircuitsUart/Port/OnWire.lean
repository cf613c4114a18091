import CircuitsUart.Port.Answers
import CircuitsUart.Port.Writing

/-!
# What an event puts on the wire

A write may take several events, and other events come in between. `Sends` is what holds of a write
in between: what is on the wire is the front of its data, and all of it once it has been answered
with `:ok`.

`Port.Writing` follows one write through its own calls and says in every case what the caller is
told. Here the unit is the event, whatever it is: `wire` is what `write(2)` accepts while it is
handled, and a read, a timeout or a closed port in the middle of a write must be seen to put
nothing there. Less is said of the answer, only that `:ok` means all of it. That is what a system
of two processes needs, where the bytes of one request after the other are to be laid end to end.
-/

set_option autoImplicit false

namespace CircuitsUart

open Lib Port

namespace Program

variable {β : Type}

/-- The bytes that `write(2)` accepts while an event is handled. `uart_write` and
`continue_in_progress_write` each have one `write(2)` that is not interrupted. -/
def wire (p : Program β) : Event β → List UInt8
  | .request os (.write data _) =>
    if p.uart.fd.isSome then (Writing.taken (Writing.attempts os data (p.enter os))).flatten else []
  | .request _ _ => []
  | .process os =>
    match p.uart.fd, p.uart.writeData with
    | some _, some data =>
      (Writing.taken (Writing.attempts os (data.drop p.uart.writeOffset) (p.enter os))).flatten
    | _, _ => []

/-- How a write of `data` stands, with `sent` on the wire. -/
structure Sends (data sent : List UInt8) (p : Program β) : Prop where
  front : sent <+: data
  going : ∀ d, p.uart.writeData = some d → d = data ∧ p.uart.writeOffset = sent.length
  whole : .response .ok ∈ p.out → sent = data

section

variable {data sent : List UInt8} {p q : Program β}

/-- No `:ok` is sent, and the write goes on as it was, or not at all. -/
theorem Sends.same (h : Sends data sent p)
    (uart : q.uart.writeData = none ∨
      q.uart.writeData = p.uart.writeData ∧ q.uart.writeOffset = p.uart.writeOffset)
    (out : .response .ok ∈ q.out → .response .ok ∈ p.out) : Sends data sent q := by
  refine ⟨h.front, fun d going => ?_, fun told => h.whole (out told)⟩
  rcases uart with none | ⟨write, offset⟩
  · exact absurd (none.symm.trans going) (by simp)
  · rw [offset]
    exact h.going d (write.symm.trans going)

/-- Closing the port after an error sends no `:ok`. -/
theorem ok_of_uartCloseOnError {reason : Errno}
    (told : .response .ok ∈ (p.uartCloseOnError reason).out) : .response .ok ∈ p.out := by
  rw [out_uartCloseOnError, cancelled, errorNotif] at told
  simp only [List.mem_append] at told
  rcases told with (told | told | told) | told
  · exact told
  · split at told <;> simp at told
  · split at told <;> simp at told
  · split at told
    · split at told <;> simp at told
    · simp at told

/-- `write_completed` with -1. -/
theorem ok_of_writeFailed (told : .response .ok ∈ (p.writeDone false).out) :
    .response .ok ∈ p.out := by
  rcases List.mem_append.mp told with earlier | now
  · exact earlier
  · exact absurd (List.mem_singleton.mp now) (by simp)

/-- **`uart_write`** begins a write. -/
theorem Sends.begun {os : Os β} {timeout : Int} (h : p.uartWrite os data timeout = .ok q)
    (silent : .response .ok ∉ p.out) :
    Sends data (Writing.taken (Writing.attempts os data p)).flatten q := by
  cases Writing.Stands.begun h with
  | pending uart out sent =>
    rw [List.append_nil] at uart sent
    refine ⟨sent, fun d going => ?_, fun told => absurd (out ▸ told) silent⟩
    rw [uart] at going ⊢
    exact ⟨(Option.some.inj going).symm, rfl⟩
  | @done r gone sent out verdict =>
    rw [List.append_nil] at sent
    refine ⟨sent, fun d going => absurd (gone.symm.trans going) (by simp), fun told => ?_⟩
    obtain ⟨rest, hout, others⟩ := out
    rw [hout, List.mem_append, List.mem_cons] at told
    rcases told with told | told | told
    · exact absurd told silent
    · cases r with
      | ok =>
        have all := (verdict.ok_iff.mp rfl).2
        rwa [List.append_nil] at all
      | error => exact absurd told (by simp [Writing.answer])
    · exact absurd (others _ told).2 (by simp)

theorem Sends.checkWriteDeadline (h : Sends data sent p) (os : Os β) :
    Sends data sent (p.checkWriteDeadline os) := by
  unfold Program.checkWriteDeadline
  split
  · exact h.same (.inl rfl) ok_of_writeFailed
  · exact h

/-- **`continue_in_progress_write`** goes on with a write. -/
theorem Sends.continued (h : Sends data sent p) {os : Os β}
    (going : p.uart.writeData = some data) (silent : .response .ok ∉ p.out)
    (took : p.continueInProgressWrite os data = .ok q) :
    Sends data (sent ++
      (Writing.taken (Writing.attempts os (data.drop p.uart.writeOffset) p)).flatten) q := by
  obtain ⟨left, rfl⟩ := h.front
  obtain ⟨-, offset⟩ := h.going _ going
  have toWrite : (sent ++ left).length - p.uart.writeOffset = left.length := by
    rw [offset, List.length_append]
    exact Nat.add_sub_cancel_left _ _
  have range : (sent ++ left).drop p.uart.writeOffset = left := by
    rw [offset]
    exact List.drop_left
  have ends := (continueInProgressWrite_cases os (sent ++ left) p).yields
  rw [took] at ends
  have ends : ContinueEnds os (sent ++ left) p q := ends
  rw [range]
  cases ends with
  | written wrote =>
    rw [toWrite] at wrote
    rw [Writing.attempts_ok wrote, Writing.taken_ok, List.take_length, List.flatten_singleton]
    exact ⟨List.prefix_refl _, fun d again => absurd again (by simp), fun _ => rfl⟩
  | @short n errno wrote short =>
    rw [toWrite] at wrote
    have le := wrote.le n rfl
    rw [Writing.attempts_ok wrote, Writing.taken_ok, List.flatten_singleton]
    refine Sends.checkWriteDeadline ⟨?_, fun d again => ?_, fun told => ?_⟩ os
    · exact (List.prefix_append_right_inj _).mpr (List.take_prefix n left)
    · refine ⟨(h.going d again).1, ?_⟩
      show p.uart.writeOffset + n = _
      rw [offset, List.length_append, List.length_take_of_le le]
    · exact absurd told silent
  | @broke e wrote other =>
    rw [toWrite] at wrote
    rw [Writing.attempts_error wrote, Writing.taken_error, List.flatten_nil, List.append_nil]
    exact h.same (.inl (by simp)) fun told =>
      ok_of_writeFailed (p := (p.withErrno e).recordErrno) (ok_of_uartCloseOnError told)
  | refused wrote =>
    rw [toWrite] at wrote
    rw [Writing.attempts_error wrote, Writing.taken_error, List.flatten_nil, List.append_nil]
    have waits : Sends (sent ++ left) sent (p.withErrno .eagain) := h.same (.inr ⟨rfl, rfl⟩) id
    exact waits.checkWriteDeadline os

/-! ## Reads in between -/

theorem ok_of_readDone {answer : Option (List β)}
    (told : .response .ok ∈ (p.readDone answer).out) : .response .ok ∈ p.out := by
  cases answer <;>
  · rcases List.mem_append.mp told with earlier | now
    · exact earlier
    · exact absurd (List.mem_singleton.mp now) (by simp)

theorem Sends.readFailed (h : Sends data sent p) (reason : Errno) :
    Sends data sent (p.readFailed reason) := by
  refine h.same (.inl (by simp [Program.readFailed])) fun told => ?_
  have told := ok_of_uartCloseOnError told
  split at told
  · exact ok_of_readDone (p := p.recordErrno) told
  · exact told

theorem Sends.notified (h : Sends data sent p) (reason : Errno) (bytes : List β) :
    Sends data sent (p.handleNotifyRead reason bytes) := by
  refine h.same (.inr ⟨by simp, by simp⟩) fun told => ?_
  unfold handleNotifyRead at told
  split at told <;>
  · rcases List.mem_append.mp told with earlier | now
    · exact earlier
    · exact absurd (List.mem_singleton.mp now) (by simp)

theorem Sends.processRead (h : Sends data sent p) (os : Os β) :
    Yields (Sends data sent) (p.processRead os) := by
  refine (processRead_cases os p).yields.mono fun q ends => ?_
  have entered (errno : Errno) : Sends data sent (p.withErrno errno) := h.same (.inr ⟨rfl, rfl⟩) id
  cases ends with
  | notified => exact (entered _).notified .zero _
  | data | expired => exact (entered _).same (.inr ⟨by simp, by simp⟩) ok_of_readDone
  | ended => exact (entered _).readFailed .eio
  | refused => exact entered _
  | broke => exact (entered _).readFailed _

/-! ## Events -/

theorem wire_open (isOpen : p.uart.fd.isSome = true) (os : Os β) (data : List UInt8)
    (timeout : Nat) : p.wire (.request os (.write data timeout)) =
      (Writing.taken (Writing.attempts os data (p.enter os))).flatten := if_pos isOpen

theorem wire_closed (closed : ¬ p.uart.fd.isSome = true) (os : Os β) (data : List UInt8)
    (timeout : Nat) : p.wire (.request os (.write data timeout)) = [] := if_neg closed

theorem wire_other (os : Os β) {command : Command}
    (other : ∀ data timeout, command ≠ .write data timeout) :
    p.wire (.request os command) = [] := by
  cases command with
  | write data timeout => exact absurd rfl (other data timeout)
  | _ => rfl

/-- Nothing is written where no write is under way. -/
theorem wire_idle (idle : p.uart.writeData = none) (os : Os β) : p.wire (.process os) = [] := by
  simp [wire, idle]

/-- **A write is asked for.** -/
theorem sends_request (idle : p.pending = false) {os : Os β} {timeout : Nat}
    (handled : p.handle (.request os (.write data timeout)) = .ok q) :
    Sends data (p.wire (.request os (.write data timeout))) q := by
  have nothing := (pending_eq_false.mp idle).1
  change (p.enter os).handleWrite os data timeout = .ok q at handled
  unfold handleWrite whenOpen at handled
  split at handled
  · next isOpen =>
    rw [wire_open (p := p) isOpen]
    cases decoded : decodeTimeout timeout with
    | error stop =>
      rw [decoded] at handled
      exact absurd handled (by simp [bind, Except.bind])
    | ok left =>
      rw [decoded] at handled
      exact Sends.begun handled (by simp [enter])
  · next closed =>
    obtain rfl := Except.ok.inj handled
    rw [wire_closed (p := p) closed]
    refine ⟨List.nil_prefix, fun d going => ?_, fun told => ?_⟩
    · exact absurd (nothing.symm.trans going) (by simp)
    · exact absurd (List.mem_singleton.mp told) (by simp)

theorem Sends.processWrite (h : Sends data sent p) (os : Os β) (isOpen : p.uart.fd.isSome = true) :
    Yields (Sends data (sent ++ p.wire (.process os))) ((p.enter os).processWrite os) := by
  have entered : Sends data sent (p.enter os) :=
    ⟨h.front, h.going, fun told => absurd told (by simp [enter])⟩
  unfold Program.processWrite
  cases under_way : p.uart.writeData with
  | none =>
    rw [show (p.enter os).uart.writeData = none from under_way, wire_idle under_way,
      List.append_nil]
    exact entered
  | some d =>
    obtain ⟨rfl, -⟩ := h.going d under_way
    obtain ⟨fd, isOpen⟩ := Option.isSome_iff_exists.mp isOpen
    have writes : p.wire (.process os) = (Writing.taken (Writing.attempts os
        (d.drop p.uart.writeOffset) (p.enter os))).flatten := by
      simp only [wire, isOpen, under_way]
    rw [show (p.enter os).uart.writeData = some d from under_way, writes]
    dsimp only
    cases took : (p.enter os).continueInProgressWrite os d with
    | error => trivial
    | ok r => exact entered.continued under_way (by simp [enter]) took

/-- **The main loop** goes on with a write. -/
theorem Sends.process (h : Sends data sent p) {os : Os β}
    (handled : p.handle (.process os) = .ok q) :
    Sends data (sent ++ p.wire (.process os)) q := by
  change (p.enter os).uartProcess os = .ok q at handled
  unfold uartProcess at handled
  cases fd : p.uart.fd with
  | none =>
    rw [show (p.enter os).uart.fd = none from fd] at handled
    obtain rfl := Except.ok.inj handled
    have silent : p.wire (.process os) = [] := by simp [wire, fd]
    rw [silent, List.append_nil]
    exact ⟨h.front, h.going, fun told => absurd told (by simp [enter])⟩
  | some n =>
    rw [show (p.enter os).uart.fd = some n from fd] at handled
    have goes : Yields (Sends data (sent ++ p.wire (.process os)))
        ((p.enter os).processWrite os >>= fun p =>
          if p.uart.activeModeEnabled ∨ p.uart.readPending then p.processRead os else pure p) := by
      refine (h.processWrite os (by rw [fd]; rfl)).bind fun r wrote => ?_
      split
      · exact wrote.processRead os
      · exact wrote
    have handled : ((p.enter os).processWrite os >>= fun p =>
      if p.uart.activeModeEnabled ∨ p.uart.readPending then p.processRead os else pure p) =
        .ok q := handled
    rw [handled] at goes
    exact goes

end

end Program

end CircuitsUart
