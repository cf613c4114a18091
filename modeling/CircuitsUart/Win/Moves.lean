import CircuitsUart.Port.Opening
import CircuitsUart.Win.Uart

/-!
# What the Windows functions are made of

But for the line settings, `uart_read` and `uart_write`, every function is made of a few
moves: a write or a read that was pending is answered and forgotten, something is reported,
or nothing changes that anyone waits for. So a relation between states that allows these
moves (`Moves`) allows every such function.

Two relations are followed through the program, and they have nothing else in common: that what is
answered is what was pending (`Win.Completed`), and that neither the cached line state nor the
device is written (`Win.LineState`). Each shows that it allows the moves, and gets every function
from here. A relation is asked to be transitive and reflexive, because the functions are sequences
of moves, some of them empty.
-/

set_option autoImplicit false

namespace CircuitsUart.Win

open Port (Stop)

open CircuitsUart.Program (Yields Yields.bind Yields.mono)

/-- An overlapped call is under way: it is done at once, or pending. -/
def taken : Except WinError Unit → Bool
  | .ok _ | .error .ioPending => true
  | .error _ => false

namespace Program

/-- A relation between the state before and the state after that allows the moves. -/
structure Moves (R : Program → Program → Prop) : Prop where
  refl : ∀ p, R p p
  trans : ∀ {p q r}, R p q → R q r → R p r
  /-- nothing pending, cached or called is touched -/
  same : ∀ {p q : Program}, q.calls = p.calls → q.blocks = p.blocks →
    q.uart.writeData = p.uart.writeData → q.uart.readPending = p.uart.readPending →
    q.uart.dcb = p.uart.dcb → R p q
  notifyRead : ∀ (p : Program) (errorReason : WinError) (data : List UInt8),
    R p (p.notifyRead errorReason data)
  signals : ∀ (p : Program) (sig : Signals), R p (p.called (.signals sig))
  /-- the write that is forgotten is answered -/
  writeDone : ∀ {p : Program} {data : Nat}, p.uart.writeData = some data → ∀ ok : Bool,
    R p ({ p with uart := { p.uart with writeData := none } }.writeCompleted ok data)
  /-- the read that is forgotten is answered -/
  readDone : ∀ {p : Program}, p.uart.readPending = true → ∀ data : Option (List UInt8),
    R p ({ p with uart := { p.uart with readPending := false } }.readCompleted data)

namespace Moves

variable {R : Program → Program → Prop} (m : Moves R)

include m

theorem record (p : Program) (error : WinError) : R p (p.record error) :=
  m.same rfl rfl rfl rfl rfl

theorem closeHandle (p : Program) : R p p.closeHandle := m.same rfl rfl rfl rfl rfl

/-! ## Closing -/

theorem cancelWrite (p : Program) : R p p.cancelWrite := by
  unfold Program.cancelWrite
  split
  · next data owed =>
    exact m.trans (m.record p .cancelled) (m.writeDone (p := p.record .cancelled) owed false)
  · exact m.refl p

theorem cancelRead (p : Program) : R p p.cancelRead := by
  unfold Program.cancelRead
  split
  · next owed =>
    exact m.trans (m.record p .cancelled) (m.readDone (p := p.record .cancelled) owed none)
  · exact m.refl p

theorem uartClose (p : Program) : R p p.uartClose := by
  unfold Program.uartClose
  split
  · exact m.trans (m.trans (m.cancelWrite p) (m.cancelRead _)) (m.closeHandle _)
  · exact m.refl p

theorem uartCloseOnError (p : Program) (reason : WinError) : R p (p.uartCloseOnError reason) := by
  unfold Program.uartCloseOnError
  dsimp only
  split
  · exact m.trans (m.trans (m.uartClose p) (m.record _ reason)) (m.notifyRead _ _ _)
  · exact m.uartClose p

/-! ## System calls -/

theorem attempt {α : Type} (result : Except WinError α) (p : Program) :
    R p (Program.attempt result p).2 := by
  unfold Program.attempt
  split
  · exact m.record p _
  · exact m.refl p

theorem updateWriteTimeout (os : Os) (timeout : Int) (p : Program) :
    R p (p.updateWriteTimeout os timeout).2 := by
  unfold Program.updateWriteTimeout
  split
  · exact m.record p _
  · exact m.same rfl rfl rfl rfl rfl

theorem startAsyncReads (os : Os) (p : Program) : R p (p.startAsyncReads os).2 := by
  unfold Program.startAsyncReads
  split
  · exact m.refl p
  · exact m.refl p
  · exact m.record p _

/-- The mask is noted down whether or not `SetCommMask` fails. -/
theorem setCommMask (os : Os) (mask : BitVec 32) (p : Program) : R p (p.setCommMask os mask).2 :=
  m.same rfl rfl rfl rfl rfl

theorem requireCommMask (os : Os) (mask : BitVec 32) (caller : String) (p : Program) :
    Yields (fun q => R p q ∧ q.uart.readPending = p.uart.readPending)
      (p.requireCommMask os mask caller) := by
  unfold Program.requireCommMask Program.setCommMask
  cases os.setCommMask with
  | error error => trivial
  | ok => exact ⟨m.same rfl rfl rfl rfl rfl, rfl⟩

/-! ## Listening -/

theorem listen (os : Os) (p : Program) : R p (p.listen os).2 := by
  unfold Program.listen
  have masked := m.trans (m.updateWriteTimeout os (-1) p)
    (m.setCommMask os EV_RXCHAR (p.updateWriteTimeout os (-1)).2)
  dsimp only
  rcases hm : Program.setCommMask os EV_RXCHAR (p.updateWriteTimeout os (-1)).2 with ⟨_ | _, p₁⟩ <;>
    rw [hm] at masked
  · exact m.trans (m.trans masked (m.record p₁ _)) (m.closeHandle _)
  · dsimp only
    split
    · have started := m.startAsyncReads os p₁
      rcases hs : p₁.startAsyncReads os with ⟨_ | _, p₂⟩ <;> rw [hs] at started
      · exact m.trans (m.trans masked started) (m.closeHandle p₂)
      · exact m.trans masked started
    · exact masked

theorem changeMode (os : Os) (active : Bool) (p : Program) :
    Yields (fun r => R p r.2) (p.changeMode os active) := by
  unfold Program.changeMode
  split
  · trivial
  · split
    · refine (m.requireCommMask os _ _ p).bind fun p₁ ⟨masked, _⟩ => ?_
      have started := m.startAsyncReads os p₁
      rcases hs : p₁.startAsyncReads os with ⟨_ | _, p₂⟩ <;> rw [hs] at started
      · exact m.trans (m.trans masked started) (m.closeHandle p₂)
      · exact m.trans masked started
    · exact (m.requireCommMask os _ _ p).bind fun p₁ ⟨masked, _⟩ => masked

theorem awaitEvent (os : Os) {p : Program} (owed : p.uart.readPending = true) :
    R p (p.awaitEvent os) := by
  unfold Program.awaitEvent Program.startAsyncReads
  cases os.waitCommEvent with
  | ok => exact m.refl p
  | error error =>
    cases error with
    | ioPending => exact m.refl p
    | _ => exact m.trans (m.record p _) (m.readDone (p := p.record _) owed none)

/-! ## What the main loop calls -/

theorem processWrite (os : Os) (p : Program) : R p (p.processWrite os) := by
  unfold Program.processWrite
  split
  · exact m.refl p
  · next data owed =>
    dsimp only
    split
    · exact m.trans (m.record p os.writeResult.2)
        (m.writeDone (p := p.record os.writeResult.2) owed os.writeResult.1)
    · exact m.refl p

theorem reportRead (os : Os) (result : Except WinError (List UInt8)) (p : Program) :
    R p (p.reportRead os result) := by
  unfold Program.reportRead
  refine m.trans (m.record p (errorOf result)) ?_
  generalize p.record (errorOf result) = p
  dsimp only
  split
  · cases result with
    | ok data => exact m.trans (m.notifyRead p .noError data) (m.startAsyncReads os _)
    | error error => exact m.notifyRead p error []
  · split
    · next owed => exact m.readDone owed result.toOption
    · exact m.refl p

theorem processEvent (os : Os) (p : Program) : R p (p.processEvent os) := by
  unfold Program.processEvent
  split
  · split
    · exact m.refl p
    · exact m.uartCloseOnError p _
    · split
      · split
        · exact m.startAsyncReads os p
        · exact m.refl p
      · split
        · exact m.reportRead os _ p
        · exact m.reportRead os _ p
        · exact m.uartCloseOnError p _
  · exact m.refl p

theorem uartProcessHandle (os : Os) (event : Handle) (p : Program) :
    R p (p.uartProcessHandle os event) := by
  cases event with
  | write => exact m.processWrite os p
  | events => exact m.processEvent os p

theorem uartProcessTimeout (os : Os) (p : Program) : Yields (R p) (p.uartProcessTimeout os) := by
  unfold Program.uartProcessTimeout
  split
  · next due =>
    refine (m.requireCommMask os _ _ p).bind fun p₁ ⟨masked, same⟩ => ?_
    exact m.trans masked (m.readDone (same.trans due.1) (some []))
  · exact m.refl p

/-! ## The other calls -/

theorem uartDrain (p : Program) : Yields (R p) p.uartDrain := by
  unfold Program.uartDrain
  split
  · trivial
  · exact m.refl p

theorem uartFlush (direction : Direction) (p : Program) : Yields (R p) (p.uartFlush direction) := by
  unfold Program.uartFlush
  split
  · trivial
  · exact m.refl p

theorem uartGetSignals (os : Os) (p : Program) : R p (p.uartGetSignals os).2 := by
  unfold Program.uartGetSignals
  split
  · exact m.record p _
  · exact m.signals p _

end Moves

/-- The result of a `void` function. -/
theorem yields_void {Q : Program → Prop} {x : Except Stop Program} (h : Yields Q x) :
    Yields (fun r => Q r.2) (x.map (true, ·)) := by
  cases x with
  | ok q => exact h
  | error stop => trivial

end Program

end CircuitsUart.Win
