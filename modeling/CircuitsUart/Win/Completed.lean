import CircuitsUart.Lib.Run
import CircuitsUart.Win.Moves

/-!
# Writes and reads on Windows are answered once

A write is **owed** an answer while `write_data` is its block, and has had one for each
`write_completed` of that block; the two together should come to one. Every function but
`uart_write` keeps that sum as it is (`Settles`): it answers what it forgets. `uart_write`
adds one for its own block, except where `WriteFile` fails: then it answers and does not
forget, and the next request finds `write_data` still set.

The sum is taken block by block, since a block is freed with its answer: a second answer to the
same write is a second `free`. Reads have no blocks and are counted together.

The discipline of the caller, one request at a time, is part of the step (`turn`), and it is said
of answers: another request may come when everything that was called has been answered. The port
may be closed at any time, which is when a write that was not forgotten is answered again.
-/

set_option autoImplicit false

namespace CircuitsUart.Win

open Port (UartConfig Stop)

open CircuitsUart.Program (Yields Yields.bind Yields.mono)

open Lib

/-! ## Counting -/

/-- The answer to the write of a block. -/
def Call.completes (data : Nat) : Call → Bool
  | .writeCompleted data' _ => data' = data
  | _ => false

def Call.isRead : Call → Bool
  | .read => true
  | _ => false

def Call.completesRead : Call → Bool
  | .readCompleted _ => true
  | _ => false

namespace Program

/-- How often `write_completed` was called for a block. -/
def completions (p : Program) (data : Nat) : Nat := p.calls.countP (Call.completes data)

def reads (p : Program) : Nat := p.calls.countP Call.isRead

def readCompletions (p : Program) : Nat := p.calls.countP Call.completesRead

/-- The answers that a block has had, and the one it waits for. -/
def writeTotal (p : Program) (data : Nat) : Nat :=
  p.completions data + if p.uart.writeData = some data then 1 else 0

def readTotal (p : Program) : Nat :=
  p.readCompletions + if p.uart.readPending then 1 else 0

/-- One call more. -/
theorem countP_called (p : Program) (c : Call) (f : Call → Bool) :
    (p.called c).calls.countP f = p.calls.countP f + (f c).toNat := by
  show (p.calls ++ [c]).countP f = _
  rw [List.countP_append, List.countP_singleton]
  cases f c <;> rfl

theorem writeTotal_called (p : Program) (c : Call) (data : Nat) :
    (p.called c).writeTotal data = p.writeTotal data + (c.completes data).toNat := by
  unfold writeTotal completions
  rw [countP_called]
  exact Nat.add_right_comm ..

theorem readTotal_called (p : Program) (c : Call) :
    (p.called c).readTotal = p.readTotal + c.completesRead.toNat := by
  unfold readTotal readCompletions
  rw [countP_called]
  exact Nat.add_right_comm ..

theorem reads_called (p : Program) (c : Call) : (p.called c).reads = p.reads + c.isRead.toNat :=
  p.countP_called c _

/-! ## What every function but `uart_write` and `uart_read` keeps -/

/-- From `p` to `q` what is answered is what is forgotten. -/
structure Settles (p q : Program) : Prop where
  writes : ∀ data, q.writeTotal data = p.writeTotal data
  readTotal : q.readTotal = p.readTotal
  reads : q.reads = p.reads
  blocks : q.blocks = p.blocks

namespace Settles

variable {p q r : Program}

theorem refl (p : Program) : Settles p p := ⟨fun _ => rfl, rfl, rfl, rfl⟩

theorem trans (h : Settles p q) (h' : Settles q r) : Settles p r where
  writes data := (h'.writes data).trans (h.writes data)
  readTotal := h'.readTotal.trans h.readTotal
  reads := h'.reads.trans h.reads
  blocks := h'.blocks.trans h.blocks

/-- Neither a call nor one of the two pending operations is touched. -/
theorem of_same (calls : q.calls = p.calls) (writeData : q.uart.writeData = p.uart.writeData)
    (readPending : q.uart.readPending = p.uart.readPending) (blocks : q.blocks = p.blocks) :
    Settles p q where
  writes data := by unfold writeTotal completions; rw [calls, writeData]
  readTotal := by unfold Program.readTotal readCompletions; rw [calls, readPending]
  reads := by unfold Program.reads; rw [calls]
  blocks := blocks

end Settles

theorem settles_cache (p : Program) (dcb : Dcb) : Settles p (p.cache dcb) :=
  .of_same rfl rfl rfl rfl

/-- A call that answers nothing and is no `uart_read`. -/
theorem settles_called (p : Program) {c : Call} (write : ∀ data, c.completes data = false)
    (read : c.completesRead = false) (asks : c.isRead = false) : Settles p (p.called c) where
  writes data := by
    rw [writeTotal_called, write]
    rfl
  readTotal := by
    rw [readTotal_called, read]
    rfl
  reads := by
    rw [reads_called, asks]
    rfl
  blocks := rfl

/-- The write that is forgotten is answered. -/
theorem settles_writeCompleted {p : Program} {data : Nat} (owed : p.uart.writeData = some data)
    (ok : Bool) :
    Settles p ({ p with uart := { p.uart with writeData := none } }.writeCompleted ok data) where
  writes data' := by
    rw [writeCompleted, writeTotal_called]
    show p.completions data' + 0 + _ = p.completions data' + _
    rw [owed]
    by_cases same : data = data' <;> simp [Call.completes, same]
  readTotal := by
    rw [writeCompleted, readTotal_called]
    rfl
  reads := by
    rw [writeCompleted, reads_called]
    rfl
  blocks := rfl

/-- The read that is forgotten is answered. -/
theorem settles_readCompleted {p : Program} (owed : p.uart.readPending = true)
    (data : Option (List UInt8)) :
    Settles p ({ p with uart := { p.uart with readPending := false } }.readCompleted data) where
  writes data' := by
    rw [readCompleted, writeTotal_called]
    rfl
  readTotal := by
    rw [readCompleted, readTotal_called]
    show p.readCompletions + 0 + _ = p.readCompletions + _
    rw [owed]
    rfl
  reads := by
    rw [readCompleted, reads_called]
    rfl
  blocks := rfl

/-! ## Function by function -/

theorem settles_moves : Moves Settles where
  refl := .refl
  trans := .trans
  same calls blocks writeData readPending _ := .of_same calls writeData readPending blocks
  notifyRead p _ _ := p.settles_called (fun _ => rfl) rfl rfl
  signals p _ := p.settles_called (fun _ => rfl) rfl rfl
  writeDone owed ok := settles_writeCompleted owed ok
  readDone owed data := settles_readCompleted owed data

theorem settles_escape (os : Os) (func : Escape) (p : Program) : Settles p (escape os func p).2 :=
  (p.settles_called (fun _ => rfl) rfl rfl).trans (settles_moves.attempt os.escapeCommFunction _)

theorem settles_uartInitDcb (os : Os) (p : Program) : Settles p (p.uartInitDcb os).2 := by
  unfold uartInitDcb
  split
  · exact settles_moves.record p _
  · exact p.settles_cache _

theorem settles_uartConfigLine (os : Os) (config : UartConfig) (p : Program) :
    Settles p (p.uartConfigLine os config).2 := by
  unfold uartConfigLine
  have given := (p.settles_cache (configDcb config p.uart.dcb)).trans (settles_called _
    (c := .setCommState (configDcb config p.uart.dcb) os.setCommState.isOk) (fun _ => rfl) rfl rfl)
  split
  · exact given.trans (settles_moves.record _ _)
  · exact given

theorem settles_uartOpen (os : Os) (name : List UInt8) (config : UartConfig) (p : Program) :
    Settles p (p.uartOpen os name config).2 := by
  unfold uartOpen
  refine (settles_moves.uartClose p).trans ?_
  generalize p.uartClose = p
  dsimp only
  split
  · exact .of_same rfl rfl rfl rfl
  · have opened : Settles p { p with
        uart := { p.uart with h := true, activeModeEnabled := config.active } } :=
      .of_same rfl rfl rfl rfl
    refine opened.trans ?_
    clear opened
    generalize ({ p with uart := { p.uart with h := true, activeModeEnabled := config.active } } :
      Program) = p
    have inited := settles_uartInitDcb os p
    rcases hi : p.uartInitDcb os with ⟨_ | _, p₁⟩ <;> rw [hi] at inited
    · exact inited.trans (settles_moves.closeHandle p₁)
    · have configured := settles_uartConfigLine os config p₁
      dsimp only
      rcases hc : p₁.uartConfigLine os config with ⟨_ | _, p₂⟩ <;> rw [hc] at configured
      · exact (inited.trans configured).trans (settles_moves.closeHandle p₂)
      · exact (inited.trans configured).trans (settles_moves.listen os p₂)

theorem settles_uartConfigure (os : Os) (config : UartConfig) (p : Program) :
    Yields (fun r => Settles p r.2) (p.uartConfigure os config) := by
  unfold uartConfigure
  have moded : Settles p { p with uart := { p.uart with activeModeEnabled := config.active } } :=
    .of_same rfl rfl rfl rfl
  dsimp only
  split
  · refine Yields.bind (Q := fun r => Settles p r.2) ?_ fun ⟨ok, p₁⟩ changed => ?_
    · split
      · exact (settles_moves.changeMode os _ _).mono fun r changed => moded.trans changed
      · exact moded
    · cases ok with
      | false => exact changed
      | true => exact Settles.trans changed (settles_uartConfigLine os config p₁)
  · exact moded

/-! ## What `uart_read` and `uart_write` add -/

/-- A read is called, and waits for one answer more or has had it. -/
structure AddsRead (p q : Program) : Prop where
  writes : ∀ data, q.writeTotal data = p.writeTotal data
  readTotal : q.readTotal = p.readTotal + 1
  reads : q.reads = p.reads + 1
  blocks : q.blocks = p.blocks

theorem AddsRead.settles {p q r : Program} (h : AddsRead p q) (h' : Settles q r) :
    AddsRead p r where
  writes data := (h'.writes data).trans (h.writes data)
  readTotal := h'.readTotal.trans h.readTotal
  reads := h'.reads.trans h.reads
  blocks := h'.blocks.trans h.blocks

theorem startRead_adds (os : Os) (timeout : Int) (p : Program) :
    Yields (AddsRead p) (p.startRead os timeout) := by
  unfold startRead uartRead
  split
  · -- active mode: answered at once
    refine ⟨fun data => ?_, ?_, ?_, rfl⟩
    · rw [readCompleted, writeTotal_called]
      exact p.writeTotal_called .read data
    · rw [readCompleted, readTotal_called]
      exact congrArg (· + 1) (p.readTotal_called .read)
    · rw [readCompleted, reads_called]
      exact p.reads_called .read
  · split
    · trivial
    · next passive idle =>
      have idle : p.uart.readPending = false := Bool.eq_false_of_not_eq_true idle
      set q : Program := { p.called .read with uart := { p.uart with
        readPending := true
        readCompletionDeadline := CircuitsUart.Program.deadline os.currentTime timeout } } with hq
      have added : AddsRead p q := by
        refine ⟨p.writeTotal_called .read, ?_, p.reads_called .read, rfl⟩
        show (p.called .read).readCompletions + 1 = p.readCompletions + _ + 1
        rw [idle]
        exact congrArg (· + 1) (p.countP_called .read _)
      show Yields (AddsRead p) (if q.uart.desiredEventMask &&& EV_RXCHAR = 0 then _ else _)
      split
      · refine (settles_moves.requireCommMask os _ _ q).bind fun p₁ ⟨masked, same⟩ => ?_
        exact (added.settles masked).settles (settles_moves.awaitEvent os same)
      · exact added.settles (settles_moves.awaitEvent os rfl)

/-- A write is called for a block, which has had, or waits for, so many answers. -/
structure AddsWrite (block answers : Nat) (p q : Program) : Prop where
  writes : ∀ data, q.writeTotal data = p.writeTotal data + if block = data then answers else 0
  readTotal : q.readTotal = p.readTotal
  reads : q.reads = p.reads

/-- `uart_write` comes to `WriteFile`. -/
def ComesToWriteFile (os : Os) (timeout : Int) (p : Program) : Prop :=
  p.uart.currentWriteTimeout = timeout ∨ os.setCommTimeouts = .ok ()

instance (os : Os) (timeout : Int) (p : Program) : Decidable (ComesToWriteFile os timeout p) :=
  inferInstanceAs (Decidable (_ ∨ _))

/-- The block is answered, and nothing else happens. -/
theorem addsWrite_writeCompleted (p : Program) (ok : Bool) (block : Nat) :
    AddsWrite block 1 p (p.writeCompleted ok block) where
  writes data := by
    rw [writeCompleted, writeTotal_called]
    by_cases same : block = data <;> simp [Call.completes, same]
  readTotal := p.readTotal_called _
  reads := p.reads_called _

/-- The block is in `write_data`. -/
theorem addsWrite_writeData {p : Program} (idle : p.uart.writeData = none) (block : Nat) :
    AddsWrite block 1 p { p with uart := { p.uart with writeData := some block } } where
  writes data := by
    show p.calls.countP _ + _ = p.calls.countP _ + _ + _
    simp [idle]
  readTotal := rfl
  reads := rfl

theorem AddsWrite.trans {block m n : Nat} {p q r : Program} (h : AddsWrite block m p q)
    (h' : AddsWrite block n q r) : AddsWrite block (m + n) p r where
  writes data := by
    rw [h'.writes, h.writes]
    split <;> omega
  readTotal := h'.readTotal.trans h.readTotal
  reads := h'.reads.trans h.reads

theorem Settles.addsWrite {block answers : Nat} {p q r : Program} (h : Settles p q)
    (h' : AddsWrite block answers q r) : AddsWrite block answers p r where
  writes data := by rw [h'.writes, h.writes]
  readTotal := h'.readTotal.trans h.readTotal
  reads := h'.reads.trans h.reads

theorem AddsWrite.settles {block answers : Nat} {p q r : Program} (h : AddsWrite block answers p q)
    (h' : Settles q r) : AddsWrite block answers p r where
  writes data := by rw [h'.writes, h.writes]
  readTotal := h'.readTotal.trans h.readTotal
  reads := h'.reads.trans h.reads

/-- **A failed `WriteFile` is answered and not forgotten.** -/
theorem writeFile_adds (os : Os) {p : Program} (idle : p.uart.writeData = none) (block : Nat) :
    AddsWrite block (if taken os.writeFile then 1 else 2) p (p.writeFile os block) := by
  have owed := addsWrite_writeData idle block
  have failed (error : WinError) := (owed.settles (settles_moves.record _ error)).trans
    (addsWrite_writeCompleted _ false block)
  unfold writeFile
  cases os.writeFile with
  | ok => exact owed
  | error error =>
    cases error with
    | ioPending => exact owed
    | _ => exact failed _

theorem blocks_writeFile (os : Os) (block : Nat) (p : Program) :
    (p.writeFile os block).blocks = p.blocks := by
  unfold writeFile
  dsimp only
  split <;> rfl

/-- How many answers there are to be to a write: one too many if `WriteFile` fails. -/
def answers (os : Os) (timeout : Int) (p : Program) : Nat :=
  if ComesToWriteFile os timeout p ∧ taken os.writeFile = false then 2 else 1

theorem answers_of_comes {os : Os} {timeout : Int} {p : Program}
    (come : ComesToWriteFile os timeout p) :
    answers os timeout p = if taken os.writeFile then 1 else 2 := by
  unfold answers
  cases taken os.writeFile <;> simp [come]

/-- What `uart_write` adds. -/
theorem uartWrite_adds (os : Os) (block : Nat) (timeout : Int) (p : Program) :
    Yields (fun q => q.blocks = p.blocks ∧ AddsWrite block (answers os timeout p) p q)
      (p.uartWrite os block timeout) := by
  cases owed : p.uart.writeData with
  | some data =>
    unfold uartWrite
    rw [if_pos (by simp [owed])]
    trivial
  | none =>
    -- once the timeout is set, what remains is `WriteFile`
    have comes (q : Program) (same : Settles p q) (idle : q.uart.writeData = none)
        (come : ComesToWriteFile os timeout p) :
        (q.writeFile os block).blocks = p.blocks ∧
          AddsWrite block (answers os timeout p) p (q.writeFile os block) := by
      rw [answers_of_comes come]
      exact ⟨(blocks_writeFile os block q).trans same.blocks,
        same.addsWrite (writeFile_adds os idle block)⟩
    unfold uartWrite
    rw [if_neg (by simp [owed])]
    split
    · next set =>
      unfold updateWriteTimeout
      cases timeouts : os.setCommTimeouts with
      | ok => exact comes _ (.of_same rfl rfl rfl rfl) owed (.inr timeouts)
      | error error =>
        have one : answers os timeout p = 1 := by simp [answers, ComesToWriteFile, set, timeouts]
        rw [one]
        exact ⟨rfl,
          (settles_moves.record p error).addsWrite (addsWrite_writeCompleted _ false block)⟩
    · next set => exact comes p (.refl p) owed (.inl (Decidable.not_not.mp set))

/-- What `uart_write` adds, for the block that `handle_write` allocates. -/
theorem startWrite_adds (os : Os) (timeout : Int) (p : Program) :
    Yields (fun q => q.blocks = p.blocks + 1 ∧ AddsWrite p.blocks (answers os timeout p) p q)
      (p.startWrite os timeout) := by
  have asked : AddsWrite p.blocks 0 p
      ({ p with blocks := p.blocks + 1 }.called (.write p.blocks)) := by
    refine ⟨fun data => ?_, readTotal_called _ _, reads_called _ _⟩
    rw [writeTotal_called, ite_self]
    rfl
  refine (uartWrite_adds os p.blocks timeout _).mono fun q ⟨blocks, adds⟩ => ⟨blocks, ?_⟩
  have both := asked.trans adds
  rwa [Nat.zero_add] at both

/-! ## A step -/

/-- What a step does to what is owed. -/
inductive Steps (p : Program) : Event → Program → Prop
  | write {os : Os} {timeout : Int} {q : Program} (blocks : q.blocks = p.blocks + 1)
      (adds : AddsWrite p.blocks (answers os timeout p) p q) :
      Steps p (.request os (.write timeout)) q
  | read {os : Os} {timeout : Int} {q : Program} (adds : AddsRead p q) :
      Steps p (.request os (.read timeout)) q
  | other {e : Event} {q : Program} (others : ∀ os timeout, e ≠ .request os (.write timeout))
      (settles : Settles p q) : Steps p e q

theorem request_steps (os : Os) (p : Program) (r : Request) :
    Yields (fun x => Steps p (.request os r) x.2) (p.request os r) := by
  cases r with
  | write timeout =>
    exact yields_void ((startWrite_adds os timeout p).mono fun q ⟨blocks, adds⟩ =>
      .write blocks adds)
  | read timeout => exact yields_void ((startRead_adds os timeout p).mono fun q adds => .read adds)
  | «open» name config => exact .other (by simp) (settles_uartOpen os name config p)
  | configure config =>
    exact (settles_uartConfigure os config p).mono fun x settles => .other (by simp) settles
  | close => exact .other (by simp) (settles_moves.uartClose p)
  | drain => exact yields_void ((settles_moves.uartDrain p).mono fun q => .other (by simp))
  | flush direction =>
    exact yields_void ((settles_moves.uartFlush direction p).mono fun q => .other (by simp))
  | setRts val =>
    exact .other (by simp) ((p.settles_cache _).trans (settles_escape os _ _))
  | setDtr val =>
    exact .other (by simp) ((p.settles_cache _).trans (settles_escape os _ _))
  | setBreak val => exact .other (by simp) (settles_moves.attempt os.commBreak p)
  | getSignals => exact .other (by simp) (settles_moves.uartGetSignals os p)

theorem handle_steps (p : Program) (e : Event) : Yields (fun x => Steps p e x.2) (p.handle e) := by
  cases e with
  | request os r => exact request_steps os p r
  | handle os event => exact .other (by simp) (settles_moves.uartProcessHandle os event p)
  | timeout os =>
    exact yields_void ((settles_moves.uartProcessTimeout os p).mono fun q => .other (by simp))

theorem step_steps {p q : Program} {e : Event} {out : List Bool} (h : p.step e = some (q, out)) :
    Steps p e q := by
  obtain ⟨ok, ran, -⟩ := step_eq_some h
  have steps := p.handle_steps e
  rw [ran] at steps
  exact steps

/-! ## Whole runs -/

/-- Every write and every read that was called has been answered. -/
def Answered (p : Program) : Prop :=
  (∀ data < p.blocks, 0 < p.completions data) ∧ p.reads ≤ p.readCompletions

instance (p : Program) : Decidable p.Answered :=
  inferInstanceAs (Decidable ((∀ data < p.blocks, 0 < p.completions data) ∧
    p.reads ≤ p.readCompletions))

/-- One request at a time: another comes when the last one is answered. The port may be closed at
any time, and so may the main loop go on. -/
def Allows (p : Program) : Event → Prop
  | .request _ .close => True
  | .request _ _ => p.Answered
  | .handle _ _ | .timeout _ => True

instance (p : Program) : DecidablePred p.Allows
  | .request _ .close => inferInstanceAs (Decidable True)
  | .request _ (.open _ _) | .request _ (.configure _) | .request _ (.write _)
  | .request _ (.read _) | .request _ .drain | .request _ (.flush _) | .request _ (.setRts _)
  | .request _ (.setDtr _) | .request _ (.setBreak _) | .request _ .getSignals =>
    inferInstanceAs (Decidable p.Answered)
  | .handle _ _ | .timeout _ => inferInstanceAs (Decidable True)

/-- A step under that discipline. -/
def turn (p : Program) (e : Event) : Option (Program × List Bool) :=
  if p.Allows e then p.step e else none

/-- Completion is exactly once. -/
structure CompletedOnce (p : Program) : Prop where
  /-- a write has had one answer, or it is under way and has had none -/
  writes : ∀ data < p.blocks, p.completions data = if p.uart.writeData = some data then 0 else 1
  /-- what was never written is neither answered nor under way -/
  others : ∀ data, p.blocks ≤ data → p.completions data = 0 ∧ p.uart.writeData ≠ some data
  /-- the write under way is answered by the first event that is not incomplete, and by a close -/
  leads : ∀ data, p.uart.writeData = some data →
    (∀ os : Os, os.writeResult.1 = true ∨ os.writeResult.2 ≠ .ioIncomplete →
      (p.uartProcessHandle os .write).completions data = 1) ∧
    (p.uart.h = true → p.uartClose.completions data = 1)
  /-- the reads but a pending one have had one answer each -/
  reads : p.readCompletions + (if p.uart.readPending then 1 else 0) = p.reads
  /-- the next request finds `write_data` cleared -/
  cleared : p.Answered → p.uart.writeData = none
  /-- and does not stop the program -/
  goesOn : p.Answered → ∀ os data timeout,
    p.uartWrite os data timeout ≠ .error (.errx "Implement write queuing in Elixir!")

/-- Every `WriteFile` that is called takes the data. -/
def WriteFileTakes (p : Program) : Event → Prop
  | .request os (.write timeout) => ComesToWriteFile os timeout p → taken os.writeFile = true
  | _ => True

/-- One answer for each write, counting the one that is owed. -/
def Balanced (p : Program) : Prop :=
  ∀ data, p.writeTotal data = if data < p.blocks then 1 else 0

theorem writeData_processWrite {os : Os} {p : Program}
    (final : os.writeResult.1 = true ∨ os.writeResult.2 ≠ .ioIncomplete) :
    (p.processWrite os).uart.writeData = none := by
  unfold processWrite
  split
  · next idle => exact idle
  · dsimp only
    rw [if_pos final]
    rfl

theorem writeData_uartClose {p : Program} (opened : p.uart.h = true) :
    p.uartClose.uart.writeData = none := by
  have cancelled : p.cancelWrite.uart.writeData = none := by
    unfold cancelWrite
    split
    · rfl
    · next idle => exact idle
  unfold uartClose cancelRead
  rw [if_pos opened]
  split <;> exact cancelled

/-- Without a write under way the answers are all there are. -/
theorem completions_of_idle {p : Program} (idle : p.uart.writeData = none) (data : Nat) :
    p.completions data = p.writeTotal data := by
  unfold writeTotal
  rw [idle]
  rfl

theorem uartWrite_goesOn {p : Program} (idle : p.uart.writeData = none) (os : Os) (data : Nat)
    (timeout : Int) :
    p.uartWrite os data timeout ≠ .error (.errx "Implement write queuing in Elixir!") := by
  unfold uartWrite
  rw [if_neg (by simp [idle])]
  split
  · split <;> simp
  · simp

theorem Balanced.lt_blocks {p : Program} (h : p.Balanced) {data : Nat}
    (owed : p.uart.writeData = some data) : data < p.blocks := by
  by_contra outside
  have total := h data
  rw [if_neg outside, writeTotal, if_pos owed] at total
  omega

/-- With one answer for each write, what is answered is not under way. -/
theorem Balanced.idle {p : Program} (h : p.Balanced) (answered : p.Answered) :
    p.uart.writeData = none := by
  cases owed : p.uart.writeData with
  | none => rfl
  | some data =>
    have inside := h.lt_blocks owed
    have total := h data
    rw [if_pos inside, writeTotal, if_pos owed] at total
    have := answered.1 data inside
    omega

theorem completedOnce_iff {p : Program} (reads : p.readTotal = p.reads) :
    p.CompletedOnce ↔ p.Balanced := by
  constructor
  · intro once data
    unfold writeTotal
    by_cases inside : data < p.blocks
    · rw [if_pos inside, once.writes data inside]
      split <;> rfl
    · obtain ⟨none, idle⟩ := once.others data (Nat.le_of_not_lt inside)
      rw [if_neg inside, none, if_neg idle]
  · intro balanced
    refine ⟨?_, ?_, ?_, reads, balanced.idle,
      fun answered => uartWrite_goesOn (balanced.idle answered)⟩
    · intro data inside
      have total := balanced data
      rw [if_pos inside, writeTotal] at total
      split at total <;> simp_all
    · intro data outside
      have total := balanced data
      rw [if_neg (Nat.not_lt.mpr outside), writeTotal, Nat.add_eq_zero_iff] at total
      exact ⟨total.1, by simpa using total.2⟩
    · intro data owed
      have total := balanced data
      rw [if_pos (balanced.lt_blocks owed)] at total
      constructor
      · intro os final
        show (p.processWrite os).completions data = 1
        rw [completions_of_idle (writeData_processWrite final)]
        exact ((settles_moves.processWrite os p).writes data).trans total
      · intro opened
        rw [completions_of_idle (writeData_uartClose opened)]
        exact ((settles_moves.uartClose p).writes data).trans total

/-- No step loses or repeats the answer to a read. -/
theorem readTotal_step {p q : Program} {e : Event} {out : List Bool}
    (reads : p.readTotal = p.reads) (h : p.step e = some (q, out)) : q.readTotal = q.reads := by
  cases step_steps h with
  | write blocks adds => rw [adds.readTotal, adds.reads, reads]
  | read adds => rw [adds.readTotal, adds.reads, reads]
  | other _ settles => rw [settles.readTotal, settles.reads, reads]

/-- **The step**: one answer for each write stays so exactly if `WriteFile` takes the data. -/
theorem balanced_step_iff {p q : Program} {e : Event} {out : List Bool} (balanced : p.Balanced)
    (h : p.step e = some (q, out)) : q.Balanced ↔ p.WriteFileTakes e := by
  cases step_steps h with
  | read adds =>
    refine iff_of_true (fun data => ?_) trivial
    rw [adds.writes, balanced, adds.blocks]
  | other others settles =>
    refine iff_of_true (fun data => ?_) ?_
    · rw [settles.writes, balanced, settles.blocks]
    · unfold WriteFileTakes
      split
      · next os timeout => exact absurd rfl (others os timeout)
      · trivial
  | @write os timeout _ blocks adds =>
    -- only the count of the new block is in question
    have elsewhere : q.Balanced ↔ answers os timeout p = 1 := by
      constructor
      · intro balanced'
        have total := balanced' p.blocks
        rw [adds.writes, balanced, blocks, if_neg (Nat.lt_irrefl _), if_pos rfl,
          if_pos (Nat.lt_succ_self _)] at total
        omega
      · intro one data
        rw [adds.writes, balanced, blocks, one]
        rcases Nat.lt_trichotomy data p.blocks with before | here | after
        · rw [if_pos before, if_neg (by omega), if_pos (by omega)]
        · rw [if_neg (by omega), if_pos here.symm, if_pos (by omega)]
        · rw [if_neg (by omega), if_neg (by omega), if_neg (by omega)]
    rw [elsewhere]
    unfold answers WriteFileTakes
    dsimp only
    cases taken os.writeFile <;> simp

theorem turn_eq_some {p q : Program} {e : Event} {out : List Bool}
    (h : p.turn e = some (q, out)) : p.step e = some (q, out) := by
  unfold turn at h
  split at h
  · exact h
  · exact absurd h (by simp)

/-- **Completion is exactly once** throughout a run of one request at a time, exactly if every
`WriteFile` that the run calls takes the data, at once or later. -/
theorem everyState_completedOnce_iff (es : List Event) :
    EveryState turn CompletedOnce {} es ↔ EveryStep turn WriteFileTakes {} es := by
  have balanced₀ : Balanced {} := fun _ => rfl
  refine everyState_iff_everyStep (I := fun p => p.readTotal = p.reads) ?_ ?_ rfl
    ((completedOnce_iff rfl).mpr balanced₀)
  · exact fun p e q out reads took => readTotal_step reads (turn_eq_some took)
  · intro p e q out reads once took
    have took := turn_eq_some took
    rw [completedOnce_iff (readTotal_step reads took)]
    exact balanced_step_iff ((completedOnce_iff reads).mp once) took

/-- `WriteFile` fails, and the port is closed. -/
def failedWrite : List Event :=
  [.request {} (.open [] Port.uartDefaultConfig),
    .request { writeFile := .error .accessDenied } (.write 5000),
    .request {} .close]

/-- The failed write is answered twice, and its block freed twice. -/
theorem not_everyState_completedOnce_failedWrite :
    (∃ p, exec turn ({} : Program) failedWrite = some (p, [true, true, true]) ∧
      p.completions 0 = 2) ∧
    ¬ EveryState turn CompletedOnce {} failedWrite := by
  refine ⟨⟨_, rfl, rfl⟩, fun once => ?_⟩
  -- the state that the close leaves
  have last := once.of_exec
    (show exec turn ({} : Program) failedWrite = some (_, [true, true, true]) from rfl)
  exact absurd (last.writes 0 (by decide)) (by decide)

end Program

end CircuitsUart.Win
