import CircuitsUart.Port.Deadlines

/-!
# Deadlines and `poll` over a run

Three places compare a deadline with a clock: `continue_in_progress_write`, `process_read` and
`update_timeout`. In every state of a run they agree on what is due, whatever was asked for and
whenever they look; a timeout of 0 has `uart_process` answer something, also where the system
has nothing to do, and a timeout that is not negative is never longer than a deadline allows.

A clock that is read is a parameter and not part of the state: the theorem is about every later
time at which somebody might look. `Timed` keeps beside the program what was last asked for, and
when, so that a deadline can be compared with the request and not with what was stored.

Timeouts are those that a call can have. The caller adds half a second and waits with a `receive`,
which takes no more than 32 bits (`maxTimeout`); so a timeout that comes to the program may be one
that an `int` does not hold, and then its deadline is another, but never an earlier one.
-/

set_option autoImplicit false

namespace CircuitsUart

open Lib Port

/-- The operation is no more. -/
def Port.Uart.drop (u : Uart) : Transfer → Uart
  | .write => { u with writeData := none }
  | .read => { u with readPending := false }

/-- The operation is pending, and its deadline has come. -/
def Port.Uart.due (u : Uart) (now : Transfer → UInt64) (op : Transfer) : Bool :=
  u.waits op && decide (u.completionDeadline op ≤ now op)

/-- The clock each deadline is compared with. -/
def Port.Os.clock {β : Type} (os : Os β) : Transfer → UInt64
  | .write => os.writeClock
  | .read => os.readClock

/-- The answer to an operation that timed out. -/
def Port.Transfer.expiry {β : Type} : Transfer → Out β
  | .write => .response (.error .eagain)
  | .read => .response (.data [])

namespace Program

variable {β : Type} {op : Transfer} {p q : Program β}

/-! ## A system with nothing to do -/

/-- A call that is interrupted any number of times, and then would block. -/
def Blocks {α : Type} (results : List (Except Errno α)) : Prop :=
  ∃ n rest, results = List.replicate n (.error .eintr) ++ .error .eagain :: rest

/-- Nothing can be written, and nothing is there to be read. -/
structure NothingToDo (os : Os β) : Prop where
  writes : Blocks os.writes
  reads : Blocks os.reads

theorem Blocks.retry {α : Type} {results : List (Except Errno α)} (blocks : Blocks results)
    (errno : Errno) : retry errno results = some (.error .eagain, .eagain) := by
  obtain ⟨n, rest, rfl⟩ := blocks
  induction n generalizing errno with
  | zero => rfl
  | succ n ih => exact ih .eintr

theorem write_blocks {os : Os β} (blocks : Blocks os.writes) (isOpen : p.uart.fd.isSome = true)
    (len : Nat) : p.write os len = .ok (.error .eagain, p.withErrno .eagain) := by
  obtain ⟨fd, hfd⟩ := Option.isSome_iff_exists.mp isOpen
  simp only [Program.write, hfd, blocks.retry]
  rfl

theorem read_blocks {os : Os β} (blocks : Blocks os.reads) (isOpen : p.uart.fd.isSome = true) :
    p.read os = .ok (.error .eagain, p.withErrno .eagain) := by
  obtain ⟨fd, hfd⟩ := Option.isSome_iff_exists.mp isOpen
  simp only [Program.read, hfd, blocks.retry]
  rfl

/-- One operation was looked at: if it is late, it is answered and no more. -/
structure Checked (op : Transfer) (isLate : Bool) (p q : Program β) : Prop where
  uart : q.uart = if p.uart.waits op && isLate then p.uart.drop op else p.uart
  out : q.out = p.out ++ if p.uart.waits op && isLate then [op.expiry] else []

theorem Checked.refl {isLate : Bool} (idle : p.uart.waits op = false) : Checked op isLate p p where
  uart := by rw [idle]; rfl
  out := by rw [idle]; exact (List.append_nil _).symm

theorem Checked.waits_self {isLate : Bool} (checked : Checked op isLate p q) :
    q.uart.waits op = (p.uart.waits op && !isLate) := by
  rw [checked.uart]
  cases waits : p.uart.waits op <;> cases isLate <;> cases op <;> simp_all [Uart.waits, Uart.drop]

theorem Checked.waits_other {isLate : Bool} (checked : Checked op isLate p q) {other : Transfer}
    (ne : other ≠ op) : q.uart.waits other = p.uart.waits other := by
  rw [checked.uart]
  split
  · cases op <;> cases other <;> first | rfl | exact absurd rfl ne
  · rfl

theorem Checked.completionDeadline {isLate : Bool} (checked : Checked op isLate p q)
    (op' : Transfer) : q.uart.completionDeadline op' = p.uart.completionDeadline op' := by
  rw [checked.uart]
  split
  · cases op <;> cases op' <;> rfl
  · rfl

theorem processWrite_blocks {os : Os β} (blocks : Blocks os.writes)
    (isOpen : p.uart.fd.isSome = true) :
    ∃ q, p.processWrite os = .ok q ∧
      Checked .write (late p.uart.writeCompletionDeadline os.writeClock) p q := by
  unfold processWrite
  split
  · next data hdata =>
    have waits : p.uart.waits .write = true := by simp [Uart.waits, hdata]
    unfold continueInProgressWrite
    dsimp only
    rw [write_blocks blocks isOpen]
    refine ⟨(p.withErrno .eagain).checkWriteDeadline os, rfl, ?_⟩
    unfold checkWriteDeadline
    rw [uart_withErrno]
    split
    · next isLate =>
      constructor
      · rw [waits, isLate, uart_writeDone]
        rfl
      · rw [waits, isLate]
        rfl
    · next inTime =>
      have inTime' := Bool.eq_false_iff.mpr inTime
      constructor
      · rw [waits, inTime']
        rfl
      · rw [waits, inTime']
        exact (List.append_nil _).symm
  · next unset => exact ⟨p, rfl, .refl (by simp [Uart.waits, unset])⟩

theorem processRead_blocks {os : Os β} (blocks : Blocks os.reads)
    (isOpen : p.uart.fd.isSome = true) :
    ∃ q, p.processRead os = .ok q ∧
      Checked .read (late p.uart.readCompletionDeadline os.readClock) p q := by
  unfold processRead
  rw [read_blocks blocks isOpen]
  dsimp only [bind, Except.bind]
  rw [if_pos rfl, uart_withErrno]
  split
  · next due =>
    have waits : p.uart.waits .read = true := due.1
    refine ⟨_, rfl, ?_, ?_⟩
    · rw [waits, due.2, uart_readDone]
      rfl
    · rw [waits, due.2]
      rfl
  · next notDue =>
    have notDue' :
        (p.uart.waits .read && late p.uart.readCompletionDeadline os.readClock) = false :=
      Bool.eq_false_iff.mpr fun h => notDue (Bool.and_eq_true_iff.mp h)
    refine ⟨_, rfl, ?_, ?_⟩
    · rw [notDue']
      rfl
    · rw [notDue']
      exact (List.append_nil _).symm

/-- **`uart_process` where nothing can be done**: what is late is answered, and that is all. -/
theorem uartProcess_blocks {os : Os β} (nothing : NothingToDo os) (placed : Placed p) :
    ∃ q, p.uartProcess os = .ok q ∧
      (∀ op, q.uart.waits op = (p.uart.waits op &&
        !late (p.uart.completionDeadline op) (os.clock op))) ∧
      q.out = p.out ++ ([.write, .read].filter fun op => p.uart.waits op &&
        late (p.uart.completionDeadline op) (os.clock op)).map Transfer.expiry := by
  unfold uartProcess
  split
  · next closed =>
    have idle : ∀ op, p.uart.waits op = false := fun op => by
      by_contra waits
      have admits := placed op (by simpa using waits)
      cases op <;> simp [Uart.admits, closed] at admits
    exact ⟨p, rfl, fun op => by simp [idle], by simp [idle]⟩
  · next fd hfd =>
    have isOpen : p.uart.fd.isSome = true := by simp [hfd]
    obtain ⟨p', wrote, checked⟩ := processWrite_blocks nothing.writes isOpen
    have isOpen' : p'.uart.fd.isSome = true := by
      rw [checked.uart]
      split <;> exact isOpen
    have read : ∃ q, (if p'.uart.activeModeEnabled ∨ p'.uart.readPending then p'.processRead os
        else .ok p') = .ok q ∧
        Checked .read (late p'.uart.readCompletionDeadline os.readClock) p' q := by
      split
      · exact processRead_blocks nothing.reads isOpen'
      · next idle => exact ⟨p', rfl, .refl (Bool.eq_false_iff.mpr (not_or.mp idle).2)⟩
    obtain ⟨q, read, checked'⟩ := read
    have same : p'.uart.readCompletionDeadline = p.uart.readCompletionDeadline :=
      checked.completionDeadline .read
    have waits : p'.uart.waits .read = p.uart.waits .read := checked.waits_other (by simp)
    rw [same] at checked'
    rw [wrote]
    refine ⟨q, read, fun op => ?_, ?_⟩
    · cases op with
      | write => exact (checked'.waits_other (by simp)).trans checked.waits_self
      | read =>
        rw [checked'.waits_self, waits]
        rfl
    · rw [checked'.out, checked.out, waits, List.append_assoc]
      congr 1
      simp only [List.filter_cons, List.filter_nil, Uart.completionDeadline, Os.clock]
      split <;> split <;> rfl

/-! ## A deadline that has come -/

/-- Whatever `write(2)` does, a late write is answered. -/
theorem processWrite_expires {os : Os β} (waits : p.uart.waits .write = true)
    (isLate : late p.uart.writeCompletionDeadline os.writeClock = true) :
    Returns (fun q => p.answers < q.answers) (p.processWrite os) := by
  have check : ∀ q : Program β, q.answers = p.answers →
      q.uart.writeCompletionDeadline = p.uart.writeCompletionDeadline →
      p.answers < (q.checkWriteDeadline os).answers := fun q answers deadline => by
    unfold checkWriteDeadline
    rw [deadline, if_pos isLate, answers_writeDone, answers_record, answers]
    omega
  unfold processWrite
  split
  · next data hdata =>
    refine (continueInProgressWrite_cases os data p).mono fun q ends => ?_
    cases ends with
    | written => simp
    | short => exact check _ rfl rfl
    | broke =>
      rw [answers_uartCloseOnError, answers_writeDone, answers_recordErrno, answers_withErrno]
      omega
    | refused => exact check _ rfl rfl
  · next unset => exact absurd waits (by simp [Uart.waits, unset])

/-- Whatever `read(2)` does, a late read is answered. -/
theorem processRead_expires {os : Os β} (waits : p.uart.waits .read = true)
    (admits : p.uart.admits .read = true)
    (isLate : late p.uart.readCompletionDeadline os.readClock = true) :
    Returns (fun q => p.answers < q.answers) (p.processRead os) := by
  have passive : p.uart.activeModeEnabled = false := by
    simpa using (Bool.and_eq_true_iff.mp admits).2
  have failed : ∀ errno reason, p.answers < ((p.withErrno errno).readFailed reason).answers := by
    intro errno reason
    have waits' : (p.withErrno errno).uart.readPending = true := waits
    unfold readFailed
    dsimp only
    rw [if_pos waits', answers_uartCloseOnError, answers_readDone]
    simp only [answers_recordErrno, answers_withErrno]
    omega
  unfold processRead
  refine (read_returns os p).bind ?_
  rintro ⟨result, _⟩ ⟨errno, rfl, reads⟩
  match result with
  | .ok (b :: bs) =>
    dsimp only
    rw [uart_withErrno, if_neg (by simp [passive])]
    simp [Returns, pure, Except.pure]
  | .ok [] => exact failed _ _
  | .error e =>
    dsimp only
    split
    · rw [uart_withErrno, if_pos ⟨waits, isLate⟩]
      simp [Returns, pure, Except.pure]
    · exact failed _ _

/-- **Whatever the system does, `uart_process` answers what is late.** -/
theorem uartProcess_expires {os : Os β} (placed : Placed p) (waits : p.uart.waits op = true)
    (isLate : late (p.uart.completionDeadline op) (os.clock op) = true) :
    Returns (fun q => p.answers < q.answers) (p.uartProcess os) := by
  have admits := placed op waits
  have wrote : Returns (Ages op p) (p.processWrite os) := processWrite_ages os p
  unfold uartProcess
  split
  · next closed => cases op <;> simp [Uart.admits, closed] at admits
  · cases op with
    | write =>
      refine (processWrite_expires waits isLate).bind fun p' answered => ?_
      split
      · have read : Returns (Ages .write p') (p'.processRead os) := processRead_ages os p'
        exact read.mono fun _ ages => answered.trans_le ages.more
      · exact answered
    | read =>
      refine wrote.bind fun p' ages => ?_
      rcases ages.told waits with lasts | answered
      · -- the write has left the read alone
        rw [if_pos (.inr lasts.after)]
        have isLate' : late p'.uart.readCompletionDeadline os.readClock = true := by
          rw [show p'.uart.readCompletionDeadline = _ from lasts.deadline]
          exact isLate
        exact (processRead_expires lasts.after (lasts.admits admits) isLate').mono
          fun _ => ages.more.trans_lt
      · split
        · have read : Returns (Ages .read p') (p'.processRead os) := processRead_ages os p'
          exact read.mono fun _ ages => answered.trans_le ages.more
        · exact answered

/-! ## What was asked for -/

/-- The largest timeout of a call: the caller waits 500 ms longer, which a `receive` has to take. -/
def maxTimeout : Nat := 2 ^ 32 - 501

/-- The `int` gives a timeout that does not fit no less time. -/
theorem le_limit {timeout : Nat} (fits : timeout ≤ maxTimeout) :
    timeout ≤ Writing.limit (toInt timeout) := by
  unfold maxTimeout at fits
  by_cases small : timeout < 2 ^ 31
  · rw [toInt_natCast small, Writing.limit, if_neg (by omega)]
    exact (Int.toNat_natCast timeout).ge
  · have negative : toInt timeout < 0 := by
      unfold toInt
      rw [BitVec.toInt_ofInt, Int.bmod_def]
      omega
    rw [Writing.limit, if_pos negative]
    omega

theorem limit_le (timeout : Int) : Writing.limit (toInt timeout) ≤ 31536000000 := by
  have lt : toInt timeout < 2 ^ 31 := BitVec.toInt_lt
  unfold Writing.limit
  split <;> omega

theorem limit_of_lt {timeout : Nat} (small : timeout < 2 ^ 31) :
    Writing.limit (toInt timeout) = timeout := by
  rw [toInt_natCast small, Writing.limit, if_neg (by omega), Int.toNat_natCast]

namespace Asked

variable {a : Asked}

/-- The addition does not wrap. -/
theorem toNat_deadline (early : a.clock.toNat < 2 ^ 63) :
    a.deadline.toNat = a.clock.toNat + Writing.limit (toInt a.timeout) := by
  have le := limit_le a.timeout
  have span : (if toInt a.timeout < 0 then oneYearMillis
      else UInt64.ofNat (toInt a.timeout).toNat).toNat = Writing.limit (toInt a.timeout) := by
    unfold Writing.limit at le ⊢
    split
    · rfl
    · next nonneg =>
      rw [if_neg nonneg] at le
      rw [UInt64.toNat_ofNat', Nat.mod_eq_of_lt (by omega)]
  unfold deadline Program.deadline
  rw [UInt64.toNat_add, span]
  omega

theorem within {now : UInt64} (asked : a.clock ≤ now) (early : now.toNat < 2 ^ 63) :
    Within a.deadline now := by
  have le := limit_le a.timeout
  rw [UInt64.le_iff_toNat_le] at asked
  refine ⟨?_, early⟩
  rw [toNat_deadline (asked.trans_lt early)]
  omega

end Asked

/-! ## Runs -/

/-- The program, and what was last asked for. -/
structure Timed (β : Type) where
  program : Program β := {}
  asked : Transfer → Asked := fun _ => {}

namespace Timed

/-- A request notes what it asks for. -/
def note (s : Timed β) (e : Event β) : Transfer → Asked :=
  match requested e with
  | some (op, a) => Function.update s.asked op a
  | none => s.asked

/-- The timeout of a request is one that the API can send. -/
def sendable (e : Event β) : Bool :=
  match requested e with
  | some (_, a) => a.timeout ≤ maxTimeout
  | none => true

def step (s : Timed β) (e : Event β) : Option (Timed β × List (Label β)) :=
  if sendable e then
    match Program.step s.program e with
    | some (p, out) => some (⟨p, s.note e⟩, out)
    | none => none
  else none

theorem step_eq_some {s s' : Timed β} {e : Event β} {out : List (Label β)}
    (h : step s e = some (s', out)) :
    sendable e = true ∧ s'.asked = s.note e ∧ ∃ q, s.program.handle e = .ok q ∧
      s'.program = { q with out := [] } ∧ out = e.label ++ q.out.map .sent := by
  unfold step at h
  split at h
  · next sent =>
    split at h
    · next p out' took =>
      obtain ⟨rfl, rfl⟩ := Prod.mk.inj (Option.some.inj h)
      exact ⟨sent, rfl, Program.step_eq_some took⟩
    · exact absurd h (by simp)
  · exact absurd h (by simp)

/-- **Every deadline is that of the last request.** -/
structure Dated (s : Timed β) : Prop where
  placed : s.program.Placed
  deadline : ∀ op, s.program.uart.waits op = true →
    s.program.uart.completionDeadline op = (s.asked op).deadline
  fits : ∀ op, (s.asked op).timeout ≤ maxTimeout

theorem fits_long {timeout : Nat} (fits : timeout ≤ maxTimeout) : (timeout : Int) ≤ LONG_MAX := by
  unfold maxTimeout at fits
  unfold LONG_MAX
  omega

theorem sendable_fits {e : Event β} {a : Asked} (sent : sendable e = true)
    (asks : requested e = some (op, a)) : a.timeout ≤ maxTimeout := by
  unfold sendable at sent
  rw [asks] at sent
  exact of_decide_eq_true sent

theorem note_self (s : Timed β) {e : Event β} {a : Asked} (asks : requested e = some (op, a)) :
    s.note e op = a := by
  unfold note
  rw [asks]
  exact Function.update_self ..

theorem note_other (s : Timed β) {e : Event β} (other : ∀ a, requested e ≠ some (op, a)) :
    s.note e op = s.asked op := by
  unfold note
  cases asks : requested e with
  | none => rfl
  | some asked =>
    obtain ⟨op', a⟩ := asked
    refine Function.update_of_ne ?_ ..
    rintro rfl
    exact other a asks

theorem Dated.step {s s' : Timed β} {e : Event β} {out : List (Label β)} (dated : Dated s)
    (took : step s e = some (s', out)) : Dated s' := by
  obtain ⟨sent, asked, q, handled, program, -⟩ := step_eq_some took
  have uart : s'.program.uart = q.uart := by rw [program]
  have each : ∀ op, (q.uart.waits op = true → q.uart.admits op = true ∧
      q.uart.completionDeadline op = (s.note e op).deadline) ∧
      (s.note e op).timeout ≤ maxTimeout := by
    intro op
    by_cases asks : ∃ a, requested e = some (op, a)
    · obtain ⟨a, asks⟩ := asks
      have fits := sendable_fits sent asks
      have begun := handle_begun dated.placed asks (fits_long fits)
      rw [handled] at begun
      rw [note_self s asks]
      exact ⟨fun waits => ⟨begun.admits waits, begun.deadline waits⟩, fits⟩
    · have ages : Yields (Ages op _) (s.program.handle e) :=
        handle_ages dated.placed (not_exists.mp asks)
      rw [handled] at ages
      rw [note_other s (not_exists.mp asks)]
      refine ⟨fun waits => ?_, dated.fits op⟩
      have lasts := ages.kept waits
      exact ⟨lasts.admits (dated.placed op lasts.before),
        lasts.deadline.trans (dated.deadline op lasts.before)⟩
  constructor
  · intro op waits
    rw [uart] at waits ⊢
    exact ((each op).1 waits).1
  · intro op waits
    rw [uart] at waits ⊢
    rw [asked]
    exact ((each op).1 waits).2
  · intro op
    rw [asked]
    exact (each op).2

theorem dated_of_reach {h : List (Label β)} {s : Timed β} (r : Reach step anyStep {} h s) :
    Dated s := by
  apply r.invariant (I := fun _ s => Dated s)
  · constructor
    · intro op waits
      cases op <;> exact absurd waits (by simp [Uart.waits])
    · intro op waits
      cases op <;> exact absurd waits (by simp [Uart.waits])
    · intro op
      exact Nat.zero_le _
  · intro _ _ _ _ _ dated _ took
    exact dated.step took

/-- What is pending was asked for by now. -/
def Later (s : Timed β) (now : Transfer → UInt64) : Prop :=
  ∀ op, s.program.uart.waits op = true → (s.asked op).clock ≤ now op ∧ (now op).toNat < 2 ^ 63

theorem Dated.allWithin {s : Timed β} (dated : Dated s) {now : Transfer → UInt64}
    (later : s.Later now) : s.program.uart.AllWithin now := by
  intro op waits
  obtain ⟨asked, early⟩ := later op waits
  rw [dated.deadline op waits]
  exact Asked.within asked early

/-- A pending operation stays pending, with its deadline, for as long as nothing is answered. -/
theorem Dated.step_follows {s s' : Timed β} {e : Event β} {out : List (Label β)} (dated : Dated s)
    (took : Timed.step s e = some (s', out)) (waits : s.program.uart.waits op = true) :
    (s'.program.uart.waits op = true ∧
      s'.program.uart.completionDeadline op = s.program.uart.completionDeadline op) ∨
      0 < responses out := by
  obtain ⟨sent, -, q, handled, program, hout⟩ := step_eq_some took
  by_cases asks : ∃ a, requested e = some (op, a)
  · -- the operation is not requested while it is pending
    obtain ⟨a, asks⟩ := asks
    have begun := handle_begun dated.placed asks (fits_long (sendable_fits sent asks))
    rw [handled] at begun
    exact absurd (waits.symm.trans begun.idle) (by simp)
  · have ages : Yields (Ages op _) (s.program.handle e) :=
      handle_ages dated.placed (not_exists.mp asks)
    rw [handled] at ages
    rcases ages.told waits with lasts | answered
    · rw [program]
      exact .inl ⟨lasts.after, lasts.deadline⟩
    · have counted : responses out = q.answers := by
        rw [hout]
        simpa [responses] using responses_step [] e q
      rw [counted]
      exact .inr (Nat.zero_lt_of_lt answered)

theorem responses_append (a b : List (Label β)) :
    responses (a ++ b) = responses a + responses b := List.countP_append

theorem Dated.exec_follows {s s' : Timed β} {es : List (Event β)} {out : List (Label β)}
    (dated : Dated s) (ran : exec Timed.step s es = some (s', out))
    (waits : s.program.uart.waits op = true) :
    (s'.program.uart.waits op = true ∧
      s'.program.uart.completionDeadline op = s.program.uart.completionDeadline op) ∨
      0 < responses out := by
  induction es generalizing s out with
  | nil =>
    obtain ⟨rfl, rfl⟩ := Prod.mk.inj (Option.some.inj ran)
    exact .inl ⟨waits, rfl⟩
  | cons e es ih =>
    obtain ⟨s₁, first, rest, took, ran', rfl⟩ := exec_cons ran
    rw [responses_append]
    rcases dated.step_follows took waits with ⟨waits₁, deadline₁⟩ | answered
    · rcases ih (dated.step took) ran' waits₁ with ⟨waits₂, deadline₂⟩ | answered
      · exact .inl ⟨waits₂, deadline₂.trans deadline₁⟩
      · exact .inr (by omega)
    · exact .inr (by omega)

/-! ## What the checks agree on -/

/-- The timeout the main loop calls `poll` with. -/
def timeout (s : Timed β) (now : Transfer → UInt64) : Int :=
  (s.program.uartAddPollEvents (now .write) (now .read) (-1)).timeout

/-- The deadlines, the clock and the timeout of `poll`, at one time. -/
structure Consistent (s : Timed β) (now : Transfer → UInt64) : Prop where
  /-- no deadline is earlier than what was asked for -/
  asked : ∀ op, s.program.uart.waits op = true →
    (s.asked op).clock.toNat + (s.asked op).timeout ≤ (s.program.uart.completionDeadline op).toNat
  late_iff : ∀ op, s.program.uart.waits op = true →
    (late (s.program.uart.completionDeadline op) (now op) = true ↔
      s.program.uart.completionDeadline op ≤ now op)
  /-- where the system has nothing to do, what is due times out, and that is all -/
  expires : ∀ os : Os β, NothingToDo os → os.clock = now →
    ∃ q, s.program.handle (.process os) = .ok q ∧
      (∀ op, q.uart.waits op = (s.program.uart.waits op && !s.program.uart.due now op)) ∧
      q.out = ([.write, .read].filter (s.program.uart.due now)).map Transfer.expiry
  either_order : s.program.uart.updateAll now [.read, .write] (-1) = s.timeout now
  bound : s.timeout now = -1 ∨ 0 ≤ s.timeout now ∧ ∀ op, s.program.uart.waits op = true →
    s.timeout now ≤ left (s.program.uart.completionDeadline op) (now op)
  zero : s.timeout now = 0 ↔ ∃ op, s.program.uart.due now op = true
  /-- `poll` waits forever only if all that is pending is over 24 days away, as only a timeout
  that is negative as an `int` can be -/
  forever : s.timeout now = -1 → ∀ op, s.program.uart.waits op = true →
    2147483647 < left (s.program.uart.completionDeadline op) (now op) ∧
      2 ^ 31 ≤ (s.asked op).timeout
  /-- after a timeout of 0 the main loop calls `uart_process` -/
  called : s.timeout now = 0 →
    (s.program.uartAddPollEvents (now .write) (now .read) (-1)).count = 1
  /-- after a timeout of 0, whatever is handled first and whatever the system does,
  `uart_process` has something answered, and it returns where the system has nothing to do -/
  completes : s.timeout now = 0 → ∀ (es : List (Event β)) s' out,
    exec step s es = some (s', out) →
    ∀ os : Os β, (∀ op, now op ≤ os.clock op ∧ (os.clock op).toNat < 2 ^ 63) →
      Yields (fun q => 0 < responses out + q.answers) (s'.program.handle (.process os)) ∧
        (NothingToDo os → ∃ q, s'.program.handle (.process os) = .ok q)

variable {s : Timed β} {now : Transfer → UInt64}

theorem Dated.early (dated : Dated s) (later : s.Later now)
    (waits : s.program.uart.waits op = true) :
    (s.program.uart.completionDeadline op).toNat =
      (s.asked op).clock.toNat + Writing.limit (toInt (s.asked op).timeout) := by
  obtain ⟨asked, early⟩ := later op waits
  rw [UInt64.le_iff_toNat_le] at asked
  rw [dated.deadline op waits, Asked.toNat_deadline (asked.trans_lt early)]

theorem Dated.due_eq (dated : Dated s) (later : s.Later now) (op : Transfer) :
    s.program.uart.due now op = (s.program.uart.waits op &&
      late (s.program.uart.completionDeadline op) (now op)) := by
  unfold Uart.due
  cases waits : s.program.uart.waits op with
  | false => rfl
  | true =>
    have exact_at := (dated.allWithin later op waits).late_iff
    rw [Bool.true_and, Bool.true_and, Bool.eq_iff_iff, decide_eq_true_eq, exact_at]

theorem Dated.expires (dated : Dated s) (later : s.Later now) (os : Os β)
    (nothing : NothingToDo os) (clock : os.clock = now) :
    ∃ q, s.program.handle (.process os) = .ok q ∧
      (∀ op, q.uart.waits op = (s.program.uart.waits op && !s.program.uart.due now op)) ∧
      q.out = ([.write, .read].filter (s.program.uart.due now)).map Transfer.expiry := by
  obtain ⟨q, processed, waits, out⟩ := uartProcess_blocks (p := s.program.enter os) nothing
    dated.placed
  have due : s.program.uart.due now = fun op => s.program.uart.waits op &&
      late (s.program.uart.completionDeadline op) (os.clock op) := by
    rw [clock]
    exact funext (dated.due_eq later)
  refine ⟨q, processed, fun op => ?_, ?_⟩
  · rw [waits, due]
    show (s.program.uart.waits op && _) =
      (s.program.uart.waits op && !(s.program.uart.waits op && _))
    cases s.program.uart.waits op <;> rfl
  · rw [out, due]
    exact List.nil_append _

/-- An operation that is due when `poll` is called is answered by the end of `uart_process`. -/
theorem Dated.completes (dated : Dated s) (later : s.Later now)
    (due : s.program.uart.due now op = true) {es : List (Event β)} {s' : Timed β}
    {out : List (Label β)} (ran : exec Timed.step s es = some (s', out)) (dated' : Dated s')
    (os : Os β)
    (clock : ∀ op, now op ≤ os.clock op ∧ (os.clock op).toNat < 2 ^ 63) :
    Yields (fun q => 0 < responses out + q.answers) (s'.program.handle (.process os)) := by
  obtain ⟨waits, passed⟩ := Bool.and_eq_true_iff.mp due
  have passed := of_decide_eq_true passed
  rcases dated.exec_follows ran waits with ⟨waits', deadline⟩ | answered
  · -- it is still pending, and now is late
    have asked := UInt64.le_trans (later op waits).1 (clock op).1
    have within := Asked.within asked (clock op).2
    rw [← dated.deadline op waits, ← deadline] at within
    have isLate := within.late_iff.mpr (deadline ▸ UInt64.le_trans passed (clock op).1)
    have expired : Returns (fun q => 0 < q.answers) (uartProcess os (s'.program.enter os)) :=
      uartProcess_expires dated'.placed waits' isLate
    exact expired.yields.mono fun q more => Nat.add_pos_right _ more
  · cases s'.program.handle (.process os) with
    | error stop => trivial
    | ok q => exact Nat.add_pos_left answered _

/-- **The deadlines of a run are consistent.** In every state of a run, whatever was asked for
and at whatever later times the clock is read, the three checks agree on what is due, and a
timeout of `poll` that is not -1 is no longer than any deadline allows. -/
theorem deadlines_consistent {h : List (Label β)} (r : Reach step anyStep {} h s)
    (later : s.Later now) : s.Consistent now := by
  have dated := dated_of_reach r
  have within := dated.allWithin later
  have poll : s.timeout now = s.program.uart.pollTimeout now :=
    timeout_uartAddPollEvents s.program now (-1)
  have zero : s.timeout now = 0 ↔ ∃ op, s.program.uart.due now op = true := by
    simp only [poll, within.pollTimeout_eq_zero, Uart.due, Bool.and_eq_true, decide_eq_true_eq]
  refine ⟨?_, ?_, dated.expires later, ?_, ?_, zero, ?_, ?_, ?_⟩
  · intro op waits
    have le := le_limit (dated.fits op)
    rw [dated.early later waits]
    omega
  · intro op waits
    exact (within op waits).late_iff
  · rw [poll]
    apply within.updateAll_congr _ (.inl rfl)
    intro op
    cases op <;> simp
  · exact within.pollTimeout_le
  · intro endless op waits
    have far := within.pollTimeout_eq_neg_one.mp endless op waits
    refine ⟨far, ?_⟩
    by_contra small
    -- a timeout that fits has no more left than it began with
    have asked := (later op waits).1
    rw [UInt64.le_iff_toNat_le] at asked
    rw [left, dated.early later waits, limit_of_lt (Nat.not_le.mp small)] at far
    omega
  · intro none_left
    obtain ⟨op, due⟩ := zero.mp none_left
    have waits : s.program.uart.waits op = true := (Bool.and_eq_true_iff.mp due).1
    unfold uartAddPollEvents
    cases op with
    | write => exact if_pos (by simp [show s.program.uart.writeData.isSome = true from waits])
    | read => exact if_pos (by simp [show s.program.uart.readPending = true from waits])
  · intro none_left es s' out ran os clock
    obtain ⟨op, due⟩ := zero.mp none_left
    have dated' := dated_of_reach (r.exec_from ran)
    refine ⟨dated.completes later due ran dated' os clock, fun nothing => ?_⟩
    obtain ⟨q, processed, -, -⟩ := uartProcess_blocks (p := s'.program.enter os) nothing
      dated'.placed
    exact ⟨q, processed⟩

/-- A port is opened in passive mode, and a read finds nothing. -/
def reading (timeout : Nat) : List (Event UInt8) :=
  [.request { opened := fun _ => .ok (3, .raw) } (.open ttyS0 [.active false]),
    .request { reads := [.error .eagain], readClock := 1000 } (.read timeout)]

/-- After 20 ms of a read of 50, `poll` may sleep for the other 30. -/
theorem deadlines_consistent_read :
    ∃ s out, exec step {} (reading 50) = some (s, out) ∧ s.timeout (fun _ => 1020) = 30 ∧
      s.Consistent fun _ => 1020 := by
  refine ⟨_, _, rfl, rfl, deadlines_consistent (.of_exec (show exec step {} (reading 50) =
    some (_, _) from rfl)) fun op waits => ?_⟩
  cases op with
  | write => exact absurd waits Bool.false_ne_true
  | read => exact ⟨by decide, by decide⟩

/-- `poll` returns before any deadline is past. -/
def InTime (s : Timed β) (now : Transfer → UInt64) : Prop :=
  ∀ op, s.program.uart.waits op = true →
    0 ≤ s.timeout now ∧ s.timeout now ≤ left (s.program.uart.completionDeadline op) (now op)

/-- A timeout of 2^31 is a negative `int`. Its deadline is a year ahead, and `poll` is told to
wait forever: it sleeps past the deadline if nothing else happens. -/
theorem poll_sleeps_past :
    ∃ s out, exec step {} (reading (2 ^ 31)) = some (s, out) ∧ s.Later (fun _ => 1000) ∧
      s.timeout (fun _ => 1000) = -1 ∧ ¬ s.InTime fun _ => 1000 := by
  refine ⟨_, _, rfl, fun op waits => ?_, rfl, fun inTime => ?_⟩
  · cases op with
    | write => exact absurd waits Bool.false_ne_true
    | read => exact ⟨by decide, by decide⟩
  · exact absurd (inTime .read rfl).1 (show ¬ (0 : Int) ≤ -1 by decide)

end Timed

end Program

end CircuitsUart
