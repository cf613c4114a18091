import CircuitsUart.Port.Responses

/-!
# One write, from `uart_write` to `write_completed`

A write is one call of `uart_write`, and then `continue_in_progress_write` for as long as
`write_data` is set. Each call ends with one `write(2)` that was not interrupted: an
`Attempt`, with the bytes the system took or the errno it gave, and the time.

What reached the wire is the concatenation of what the attempts took. What the caller is
told, and when, is said in terms of the attempts alone: all was accepted, the last one
broke, or the deadline came first. `Stands` relates the two to the port, and every call
keeps it.

The three verdicts are about a list of attempts and name no state, so that the code cannot make
them true by what it stores. The deadline is said on natural numbers (`Expired`), the milliseconds
that have passed on a clock of 64 bits; the code subtracts unsigned words and takes a difference of
more than a year for a negative one, and `late_iff` says that the two agree, whatever the clocks.
-/

set_option autoImplicit false

namespace CircuitsUart

open Lib Port

namespace Writing

/-! ## The attempts -/

/-- A `write(2)` that returned: the bytes taken of those it was given, or the errno. -/
structure Attempt where
  result : Except Errno (List UInt8)
  clock : UInt64

/-- The byte ranges the system accepted, in order. -/
def taken (log : List Attempt) : List (List UInt8) := log.filterMap fun a => a.result.toOption

@[simp] theorem taken_append (a b : List Attempt) : taken (a ++ b) = taken a ++ taken b :=
  List.filterMap_append

/-- The whole buffer was accepted; an empty one is when a `write(2)` of it succeeds. -/
def Accepted (data : List UInt8) (log : List Attempt) : Prop :=
  taken log ≠ [] ∧ (taken log).flatten = data

/-- The last attempt failed, and not because the device was busy. -/
def Broke (log : List Attempt) (e : Errno) : Prop :=
  e ≠ .eagain ∧ ∃ a, log.getLast? = some a ∧ a.result = .error e

/-- The milliseconds a write may take. -/
def limit (timeout : Int) : Nat := if timeout < 0 then 31536000000 else timeout.toNat

/-- `limit timeout` milliseconds have passed. A difference near `2^64` is a clock that ran
backwards, by less than the year the code allows for. -/
def Expired (timeout : Int) (start now : UInt64) : Prop :=
  limit timeout ≤ (now - start).toNat ∧ (now - start).toNat < limit timeout + (2 ^ 64 - 31536000000)

/-- The deadline, `limit timeout` after `start`, had come at the last of the later attempts.
Without a timeout the first attempt is the only one. -/
def TimedOut (timeout : Int) (start : UInt64) (later : List Attempt) : Prop :=
  timeout = 0 ∨ ∃ a, later.getLast? = some a ∧ Expired timeout start a.clock

/-- What `write_completed` reports: 0, or -1 with a reason. -/
inductive Verdict (data : List UInt8) (timeout : Int) (start : UInt64)
    (first later : List Attempt) : Except Reason Unit → Prop
  | accepted (all : Accepted data (first ++ later)) : Verdict data timeout start first later (.ok ())
  | broke {e : Errno} (rest : ¬ Accepted data (first ++ later)) (broke : Broke (first ++ later) e) :
      Verdict data timeout start first later (.error (recordLastError e))
  | timedOut (rest : ¬ Accepted data (first ++ later)) (unbroken : ∀ e, ¬ Broke (first ++ later) e)
      (late : TimedOut timeout start later) :
      Verdict data timeout start first later (.error .eagain)

/-- `handle_write_completed`'s response. -/
def answer {β : Type} : Except Reason Unit → Response β
  | .ok () => .ok
  | .error reason => .error reason

/-! ## The calls -/

variable {β : Type}

/-- The attempt a call that is given `range` ends with. -/
def attempts (os : Os β) (range : List UInt8) (p : Program β) : List Attempt :=
  match p.write os range.length with
  | .ok (result, _) => [⟨result.map range.take, os.writeClock⟩]
  | .error _ => []

/-- One call of `continue_in_progress_write`, which needs a write that is under way. -/
def step (p : Program β) (os : Os β) : Option (Program β × List Attempt) :=
  match p.uart.writeData with
  | none => none
  | some data =>
    match p.continueInProgressWrite os data with
    | .ok q => some (q, attempts os (data.drop p.uart.writeOffset) p)
    | .error _ => none

/-- The messages behind the one for the write: a notification, and the answer to a read, if
one was pending. -/
def Others (p : Program β) (rest : List (Out β)) : Prop :=
  ∀ r, .response r ∈ rest → p.uart.readPending = true ∧ r = .error .ecanceled

/-- How a write of `data`, begun at `start` on the port `p`, stands after its attempts. -/
inductive Stands (p : Program β) (data : List UInt8) (timeout : Int) (start : UInt64)
    (first later : List Attempt) (q : Program β) : Prop
  | pending
      (uart : q.uart = { p.uart with
        writeData := some data
        writeOffset := (taken (first ++ later)).flatten.length
        writeCompletionDeadline := Program.deadline start timeout })
      (out : q.out = p.out)
      (sent : (taken (first ++ later)).flatten <+: data)
      (rest : ¬ Accepted data (first ++ later))
      (unbroken : ∀ e, ¬ Broke (first ++ later) e)
      (inTime : ¬ TimedOut timeout start later)
  | done {r : Except Reason Unit} (gone : q.uart.writeData = none)
      (sent : (taken (first ++ later)).flatten <+: data)
      (out : ∃ rest, q.out = p.out ++ .response (answer r) :: rest ∧ Others p rest)
      (verdict : Verdict data timeout start first later r)

/-! ## The deadline -/

/-- **The deadline is late exactly when the time is up**, whatever the two clocks. -/
theorem late_iff {timeout : Int} (fits : timeout < 2 ^ 31) (start now : UInt64) :
    Program.late (Program.deadline start timeout) now = true ↔ Expired timeout start now := by
  have year : limit timeout ≤ 31536000000 := by
    unfold limit
    split <;> omega
  have span : (if timeout < 0 then Program.oneYearMillis else UInt64.ofNat timeout.toNat).toNat =
      limit timeout := by
    unfold limit
    split
    · rfl
    · rw [UInt64.toNat_ofNat']
      apply Nat.mod_eq_of_lt
      omega
  unfold Program.late Program.deadline Expired
  simp only [decide_eq_true_eq, ← UInt64.toNat_inj, gt_iff_lt, UInt64.lt_iff_toNat_lt,
    UInt64.toNat_sub, UInt64.toNat_add, span]
  have one : Program.oneYearMillis.toNat = 31536000000 := rfl
  have hs := start.toNat_lt
  have hn := now.toNat_lt
  rw [one]
  simp only [UInt64.toNat_zero]
  omega

/-! ## One `write(2)` -/

/-- The attempt a `write` was that took `n` bytes. -/
theorem attempts_ok {os : Os β} {range : List UInt8} {p : Program β} {n : Nat} {errno : Errno}
    (wrote : p.Writes os range.length (.ok n) errno) :
    attempts os range p = [⟨.ok (range.take n), os.writeClock⟩] := by
  rw [attempts, wrote.returned]
  rfl

/-- The attempt a `write` was that failed. -/
theorem attempts_error {os : Os β} {range : List UInt8} {p : Program β} {e errno : Errno}
    (wrote : p.Writes os range.length (.error e) errno) :
    attempts os range p = [⟨.error e, os.writeClock⟩] := by
  rw [attempts, wrote.returned]
  rfl

/-- The port is closed after an error, and the messages behind the answer are not for the
write. -/
theorem others_closed {p q : Program β} (gone : q.uart.writeData = none)
    (same : q.uart.readPending = p.uart.readPending) (e : Errno) :
    ∃ rest, (q.uartCloseOnError e).out = q.out ++ rest ∧ Others p rest := by
  refine ⟨_, by rw [Program.out_uartCloseOnError, List.append_assoc], fun r hr => ?_⟩
  rw [Program.cancelled, gone, same] at hr
  rcases List.mem_append.mp hr with hr | hr
  · cases hread : p.uart.readPending with
    | true => simpa [hread] using hr
    | false => exact absurd hr (by simp [hread])
  · split at hr
    · exact absurd hr (by simp [Program.errorNotif])
    · exact absurd hr (by simp)

/-! ## What each call does to a write -/

/-- An attempt that took nothing because the device was busy. -/
theorem not_broke_busy (log : List Attempt) {clock : UInt64} (e : Errno) :
    ¬ Broke (log ++ [⟨.error .eagain, clock⟩]) e := by
  rintro ⟨busy, a, last, result⟩
  rw [List.getLast?_concat] at last
  obtain rfl := Option.some.inj last
  exact busy (Except.error.inj result).symm

theorem not_broke_ok (log : List Attempt) {bytes : List UInt8} {clock : UInt64} (e : Errno) :
    ¬ Broke (log ++ [⟨.ok bytes, clock⟩]) e := by
  rintro ⟨-, a, last, result⟩
  rw [List.getLast?_concat] at last
  obtain rfl := Option.some.inj last
  exact absurd result (by simp)

theorem broke_last (log : List Attempt) {e : Errno} {clock : UInt64} (other : e ≠ .eagain) :
    Broke (log ++ [⟨.error e, clock⟩]) e :=
  ⟨other, _, List.getLast?_concat, rfl⟩

@[simp] theorem taken_error (e : Errno) (clock : UInt64) : taken [⟨.error e, clock⟩] = [] := rfl

@[simp] theorem taken_ok (bytes : List UInt8) (clock : UInt64) :
    taken [⟨.ok bytes, clock⟩] = [bytes] := rfl

/-- The bytes on the wire, after a first attempt that took some. -/
theorem taken_first (data : List UInt8) (n : Nat) (clock : UInt64) :
    (taken ([⟨.ok (data.take n), clock⟩] ++ [])).flatten = data.take n := by
  simp

theorem rest_first {data : List UInt8} {n : Nat} (le : n ≤ data.length) (short : n ≠ data.length)
    (clock : UInt64) : ¬ Accepted data ([⟨.ok (data.take n), clock⟩] ++ []) := by
  rintro ⟨-, all⟩
  rw [taken_first] at all
  have := congrArg List.length all
  rw [List.length_take_of_le le] at this
  exact short this

theorem not_timedOut_first {timeout : Int} (some_time : timeout ≠ 0) (start : UInt64) :
    ¬ TimedOut timeout start [] := by
  rintro (no_time | ⟨a, last, -⟩)
  · exact some_time no_time
  · exact absurd last (by simp)

/-- `uart_write`, after a `write(2)` that ended it. -/
theorem Stands.begun_broke {p : Program β} (idle : p.uart.writeData = none) (data : List UInt8)
    {timeout : Int} (clock : UInt64) {e : Errno} (ended : ¬ (e = .eagain ∧ timeout ≠ 0)) :
    Stands p data timeout clock [⟨.error e, clock⟩] []
      (((p.withErrno e).recordErrno.handleWriteCompleted false).uartCloseOnError e) := by
  have none_taken : ¬ Accepted data ([] ++ [⟨.error e, clock⟩]) := fun all => all.1 rfl
  obtain ⟨rest, hout, hothers⟩ := others_closed (p := p)
    (q := ((p.withErrno e).recordErrno.handleWriteCompleted false)) (by simpa using idle) (by simp) e
  refine .done (r := .error (recordLastError e)) (by simp) List.nil_prefix ⟨rest, ?_, hothers⟩ ?_
  · rw [hout, List.append_cons]
    rfl
  · by_cases busy : e = .eagain
    · subst busy
      refine .timedOut none_taken (not_broke_busy []) (.inl ?_)
      by_contra some_time
      exact ended ⟨rfl, some_time⟩
    · exact .broke none_taken (broke_last [] busy)

/-- **`uart_write`** leaves the write pending, or answers it. -/
theorem Stands.begun {p q : Program β} {os : Os β} {data : List UInt8} {timeout : Int}
    (h : p.uartWrite os data timeout = .ok q) :
    Stands p data timeout os.writeClock (attempts os data p) [] q := by
  have yields := Program.uartWrite_yields os data timeout p
  rw [h] at yields
  obtain ⟨idle, ends⟩ := yields
  have quiet : Others p [] := fun r hr => absurd hr (by simp)
  cases ends with
  | refused wrote some_time =>
    rw [attempts_error wrote]
    exact .pending rfl rfl List.nil_prefix (fun all => all.1 rfl) (not_broke_busy [])
      (not_timedOut_first some_time _)
  | broke wrote ended =>
    rw [attempts_error wrote]
    exact .begun_broke idle data _ ended
  | @short n errno wrote short some_time =>
    have le := wrote.le n rfl
    rw [attempts_ok wrote]
    refine .pending ?_ rfl ?_ (rest_first le short _) (not_broke_ok [])
      (not_timedOut_first some_time _)
    · rw [taken_first, List.length_take_of_le le]
      rfl
    · rw [taken_first]
      exact List.take_prefix n data
  | @expired n errno wrote short no_time =>
    rw [attempts_ok wrote]
    refine .done (r := .error .eagain) idle ?_ ⟨[], rfl, quiet⟩
      (.timedOut (rest_first (wrote.le n rfl) short _) (not_broke_ok []) (.inl no_time))
    rw [taken_first]
    exact List.take_prefix n data
  | written wrote =>
    have all : (taken ([⟨.ok (data.take data.length), os.writeClock⟩] ++ [])).flatten = data := by
      rw [taken_first, List.take_length]
    rw [attempts_ok wrote]
    exact .done (r := .ok ()) idle (by rw [all]) ⟨[], rfl, quiet⟩ (.accepted ⟨by simp, all⟩)

/-- The end of `continue_in_progress_write`, with something still to be written. -/
theorem Stands.checkWriteDeadline {p q : Program β} {data : List UInt8} {timeout : Int}
    {start : UInt64} {first later : List Attempt} {result : Except Errno (List UInt8)} (os : Os β)
    (fits : timeout < 2 ^ 31) (some_time : timeout ≠ 0)
    (uart : q.uart = { p.uart with
      writeData := some data
      writeOffset := (taken (first ++ (later ++ [⟨result, os.writeClock⟩]))).flatten.length
      writeCompletionDeadline := Program.deadline start timeout })
    (out : q.out = p.out)
    (sent : (taken (first ++ (later ++ [⟨result, os.writeClock⟩]))).flatten <+: data)
    (rest : ¬ Accepted data (first ++ (later ++ [⟨result, os.writeClock⟩])))
    (unbroken : ∀ e, ¬ Broke (first ++ (later ++ [⟨result, os.writeClock⟩])) e) :
    Stands p data timeout start first (later ++ [⟨result, os.writeClock⟩])
      (q.checkWriteDeadline os) := by
  have expired := late_iff fits start os.writeClock
  unfold Program.checkWriteDeadline
  rw [uart]
  split
  · next late =>
    refine .done (r := .error .eagain) (by simp) sent ⟨[], ?_, fun r hr => absurd hr (by simp)⟩ ?_
    · rw [← out]
      rfl
    · exact .timedOut rest unbroken (.inr ⟨_, List.getLast?_concat, expired.mp late⟩)
  · next early =>
    refine .pending uart out sent rest unbroken ?_
    rintro (no_time | ⟨a, last, late⟩)
    · exact some_time no_time
    · rw [List.getLast?_concat] at last
      obtain rfl := Option.some.inj last
      exact early (expired.mpr late)

/-- A write that goes on: `wire` was accepted, and `tail` was not. -/
structure Ongoing (p : Program β) (wire tail : List UInt8) (timeout : Int) (start : UInt64)
    (first later : List Attempt) (q : Program β) : Prop where
  uart : q.uart = { p.uart with
    writeData := some (wire ++ tail)
    writeOffset := wire.length
    writeCompletionDeadline := Program.deadline start timeout }
  out : q.out = p.out
  sent : (taken (first ++ later)).flatten = wire
  rest : ¬ Accepted (wire ++ tail) (first ++ later)
  some_time : timeout ≠ 0

theorem taken_next (first later : List Attempt) (a : Attempt) :
    taken (first ++ (later ++ [a])) = taken (first ++ later) ++ taken [a] := by
  rw [← List.append_assoc, taken_append]

section

variable {p q : Program β} {wire tail : List UInt8} {timeout : Int} {start : UInt64}
  {first later : List Attempt} {os : Os β} {clock : UInt64}

/-- The bytes on the wire, after an attempt that took some. -/
theorem Ongoing.flatten_ok (ongoing : Ongoing p wire tail timeout start first later q)
    (bytes : List UInt8) (clock : UInt64) :
    (taken (first ++ (later ++ [⟨.ok bytes, clock⟩]))).flatten = wire ++ bytes := by
  rw [taken_next, List.flatten_append, ongoing.sent]
  simp

/-- An attempt that failed took none. -/
theorem Ongoing.flatten_error (ongoing : Ongoing p wire tail timeout start first later q)
    (e : Errno) : (taken (first ++ (later ++ [⟨.error e, clock⟩]))).flatten = wire := by
  rw [taken_next, taken_error, List.append_nil, ongoing.sent]

theorem Ongoing.rest_error (ongoing : Ongoing p wire tail timeout start first later q) (e : Errno) :
    ¬ Accepted (wire ++ tail) (first ++ (later ++ [⟨.error e, clock⟩])) := by
  have rest := ongoing.rest
  unfold Accepted at rest ⊢
  rwa [taken_next, taken_error, List.append_nil]

/-- The rest was accepted. -/
theorem Ongoing.all (ongoing : Ongoing p wire tail timeout start first later q) (errno : Errno) :
    Stands p (wire ++ tail) timeout start first (later ++ [⟨.ok (tail.take tail.length), clock⟩])
      ((q.withErrno errno).writeDone true) := by
  have flat := ongoing.flatten_ok (tail.take tail.length) clock
  rw [List.take_length] at flat ⊢
  refine .done (r := .ok ()) (by simp) (by rw [flat])
    ⟨[], ?_, fun r hr => absurd hr (by simp)⟩ (.accepted ⟨?_, flat⟩)
  · rw [← ongoing.out]
    rfl
  · rw [taken_next]
    simp

/-- A part of the rest was accepted. -/
theorem Ongoing.part (ongoing : Ongoing p wire tail timeout start first later q)
    (fits : timeout < 2 ^ 31) {written : Nat} (hle : written ≤ tail.length)
    (short : written ≠ tail.length) (errno : Errno) :
    let q' := q.withErrno errno
    Stands p (wire ++ tail) timeout start first (later ++ [⟨.ok (tail.take written), os.writeClock⟩])
      ({ q' with uart := { q'.uart with
        writeOffset := q'.uart.writeOffset + written } }.checkWriteDeadline os) := by
  intro q'
  have flat := ongoing.flatten_ok (tail.take written) os.writeClock
  refine .checkWriteDeadline os fits ongoing.some_time ?_ ongoing.out ?_ ?_ ?_
  · rw [flat, List.length_append, List.length_take_of_le hle]
    simp [q', ongoing.uart]
  · rw [flat]
    exact (List.prefix_append_right_inj _).mpr (List.take_prefix _ _)
  · rintro ⟨-, all⟩
    rw [flat] at all
    have := congrArg List.length (List.append_cancel_left all)
    rw [List.length_take_of_le hle] at this
    exact short this
  · rw [← List.append_assoc]
    exact not_broke_ok _

/-- The write broke, and closed the port. -/
theorem Ongoing.broke (ongoing : Ongoing p wire tail timeout start first later q) {errno : Errno}
    (other : errno ≠ .eagain) :
    Stands p (wire ++ tail) timeout start first (later ++ [⟨.error errno, clock⟩])
      (((q.withErrno errno).recordErrno.writeDone false).uartCloseOnError errno) := by
  obtain ⟨others, hothers, hmine⟩ := others_closed (p := p)
    (q := ((q.withErrno errno).recordErrno.writeDone false)) (by simp) (by simp [ongoing.uart]) errno
  refine .done (r := .error (recordLastError errno)) (by simp) ?_ ⟨others, ?_, hmine⟩
    (.broke (ongoing.rest_error errno) ?_)
  · rw [ongoing.flatten_error]
    exact List.prefix_append _ _
  · rw [hothers, List.append_cons, ← ongoing.out]
    rfl
  · rw [← List.append_assoc]
    exact broke_last _ other

/-- The device was busy. -/
theorem Ongoing.busy (ongoing : Ongoing p wire tail timeout start first later q)
    (fits : timeout < 2 ^ 31) :
    Stands p (wire ++ tail) timeout start first (later ++ [⟨.error .eagain, os.writeClock⟩])
      ((q.withErrno .eagain).checkWriteDeadline os) := by
  refine .checkWriteDeadline os fits ongoing.some_time ?_ ongoing.out ?_ (ongoing.rest_error _) ?_
  · rw [ongoing.flatten_error]
    exact ongoing.uart
  · rw [ongoing.flatten_error]
    exact List.prefix_append _ _
  · rw [← List.append_assoc]
    exact not_broke_busy _

/-- **`continue_in_progress_write`** goes on with a pending write, or answers it. -/
theorem Ongoing.step {q' : Program β} {out : List Attempt} (fits : timeout < 2 ^ 31)
    (ongoing : Ongoing p wire tail timeout start first later q)
    (h : step q os = some (q', out)) :
    Stands p (wire ++ tail) timeout start first (later ++ out) q' := by
  have hdrop : (wire ++ tail).drop wire.length = tail := List.drop_left
  have hlen : (wire ++ tail).length - q.uart.writeOffset = tail.length := by
    rw [ongoing.uart, List.length_append]
    exact Nat.add_sub_cancel_left _ _
  unfold Writing.step at h
  rw [ongoing.uart] at h
  dsimp only at h
  rw [hdrop] at h
  split at h
  · next q₁ hq =>
    obtain ⟨rfl, rfl⟩ := Prod.mk.inj (Option.some.inj h)
    have yields := (Program.continueInProgressWrite_cases os (wire ++ tail) q).yields
    rw [hq] at yields
    have ends : Program.ContinueEnds os (wire ++ tail) q q₁ := yields
    cases ends with
    | @written errno wrote =>
      rw [hlen] at wrote
      rw [attempts_ok wrote]
      exact ongoing.all errno
    | @short n errno wrote short =>
      rw [hlen] at wrote short
      rw [attempts_ok wrote]
      exact ongoing.part fits (wrote.le n rfl) short errno
    | broke wrote other =>
      rw [hlen] at wrote
      rw [attempts_error wrote]
      exact ongoing.broke other
    | refused wrote =>
      rw [hlen] at wrote
      rw [attempts_error wrote]
      exact ongoing.busy fits
  · exact absurd h (by simp)

end

/-- Every call goes on with a pending write, and leaves one that is answered. -/
theorem Stands.step {p q q' : Program β} {data : List UInt8} {timeout : Int} {start : UInt64}
    {first later out : List Attempt} {os : Os β} (fits : timeout < 2 ^ 31)
    (stands : Stands p data timeout start first later q) (h : step q os = some (q', out)) :
    Stands p data timeout start first (later ++ out) q' := by
  cases stands with
  | done gone => exact absurd h (by simp [Writing.step, gone])
  | pending uart hout sent rest unbroken inTime =>
    obtain ⟨tail, rfl⟩ := sent
    have ongoing : Ongoing p _ tail timeout start first later q :=
      ⟨uart, hout, rfl, rest, fun no_time => inTime (.inl no_time)⟩
    exact ongoing.step fits h

/-! ## Every run -/

/-- The attempts decide the verdict. -/
theorem Verdict.ok_iff {data : List UInt8} {timeout : Int} {start : UInt64}
    {first later : List Attempt} {r : Except Reason Unit}
    (h : Verdict data timeout start first later r) : r = .ok () ↔ Accepted data (first ++ later) := by
  cases h with
  | accepted all => exact iff_of_true rfl all
  | broke rest => exact iff_of_false (by simp) rest
  | timedOut rest => exact iff_of_false (by simp) rest

/-- The reason of a write that failed: the errno, or that the time was up. -/
def FailsWith (data : List UInt8) (timeout : Int) (start : UInt64) (first later : List Attempt)
    (reason : Reason) : Prop :=
  ¬ Accepted data (first ++ later) ∧
    ((∃ e, Broke (first ++ later) e ∧ reason = recordLastError e) ∨
      (∀ e, ¬ Broke (first ++ later) e) ∧ TimedOut timeout start later ∧ reason = .eagain)

theorem Verdict.error_iff {data : List UInt8} {timeout : Int} {start : UInt64}
    {first later : List Attempt} {r : Except Reason Unit}
    (h : Verdict data timeout start first later r) (reason : Reason) :
    r = .error reason ↔ FailsWith data timeout start first later reason := by
  cases h with
  | accepted all => exact iff_of_false (by simp) fun fails => fails.1 all
  | @broke e rest broke =>
    constructor
    · intro same
      exact ⟨rest, .inl ⟨e, broke, (Except.error.inj same).symm⟩⟩
    · rintro ⟨-, ⟨e', broke', rfl⟩ | ⟨unbroken, -⟩⟩
      · obtain ⟨-, a, last, result⟩ := broke
        obtain ⟨-, a', last', result'⟩ := broke'
        obtain rfl := Option.some.inj (last.symm.trans last')
        rw [Except.error.inj (result.symm.trans result')]
      · exact absurd broke (unbroken e)
  | timedOut rest unbroken late =>
    constructor
    · intro same
      exact ⟨rest, .inr ⟨unbroken, late, (Except.error.inj same).symm⟩⟩
    · rintro ⟨-, ⟨e', broke', -⟩ | ⟨-, -, rfl⟩⟩
      · exact absurd broke' (unbroken e')
      · rfl

/-- **A write puts exactly its data on the wire, and is answered once.** After `uart_write` and
any number of calls of `continue_in_progress_write`:

* what the system accepted, range after range, is a prefix of the data;
* while `write_completed` has not been called the write is pending and nothing was sent; once it
  has, with `r`, there is its one answer, and no reference to the buffer;
* it has been called with 0 exactly when all was accepted;
* it has been called with -1 and `reason` exactly when not all was accepted, and the last
  `write(2)` failed with another errno than `EAGAIN`, which is the reason, or it did not and
  the time was up, which is `:eagain`. -/
theorem writes_exactly {p q₀ q : Program β} {os : Os β} {data : List UInt8} {timeout : Int}
    {later : List Attempt} (fits : timeout < 2 ^ 31) (begun : p.uartWrite os data timeout = .ok q₀)
    (run : Reach step anyStep q₀ later q) :
    let first := attempts os data p
    (taken (first ++ later)).flatten <+: data ∧
    ∃ completed : Option (Except Reason Unit),
      (match completed with
        | none => q.uart.writeData = some data ∧ q.out = p.out
        | some r => q.uart.writeData = none ∧
          ∃ rest, q.out = p.out ++ .response (answer r) :: rest ∧ Others p rest) ∧
      (completed = some (.ok ()) ↔ Accepted data (first ++ later)) ∧
      ∀ reason, completed = some (.error reason) ↔
        FailsWith data timeout os.writeClock first later reason := by
  intro first
  have stands : Stands p data timeout os.writeClock first later q := by
    apply run.invariant (I := fun later q => Stands p data timeout os.writeClock first later q)
    · exact .begun begun
    · intro h s e s' out stands _ took
      exact stands.step fits took
  cases stands with
  | pending uart out sent rest unbroken inTime =>
    refine ⟨sent, none, ⟨by rw [uart], out⟩, iff_of_false (by simp) rest, fun reason => ?_⟩
    refine iff_of_false (by simp) ?_
    rintro ⟨-, ⟨e, broke, -⟩ | ⟨-, late, -⟩⟩
    · exact unbroken e broke
    · exact inTime late
  | @done r gone sent out verdict =>
    refine ⟨sent, some r, ⟨gone, out⟩, ?_, fun reason => ?_⟩
    · rw [Option.some.injEq]
      exact verdict.ok_iff
    · rw [Option.some.injEq]
      exact verdict.error_iff reason

/-- An interrupted call, a short one, a busy device, and the rest. -/
theorem writes_exactly_threeAttempts :
    let p : Program UInt8 := { uart := { fd := some 3 } }
    let os : Os UInt8 := { writes := [.error .eintr, .ok 1] }
    let later : List (Os UInt8) := [{ writes := [.error .eagain], writeClock := 99 },
      { writes := [.ok 2], writeClock := 100 }]
    ∃ q₀ q log, p.uartWrite os [65, 66, 67] 100 = .ok q₀ ∧ exec step q₀ later = some (q, log) ∧
      taken (attempts os [65, 66, 67] p ++ log) = [[65], [66, 67]] ∧
      (taken (attempts os [65, 66, 67] p ++ log)).flatten <+: [65, 66, 67] := by
  intro p os later
  have ranges : ((p.uartWrite os [65, 66, 67] 100).toOption.bind fun q₀ => exec step q₀ later).map
      (fun r => taken (attempts os [65, 66, 67] p ++ r.2)) = some [[65], [66, 67]] := by decide
  cases begun : p.uartWrite os [65, 66, 67] 100 with
  | error stop => exact absurd ranges (by simp [begun, Except.toOption])
  | ok q₀ =>
    cases ran : exec step q₀ later with
    | none => exact absurd ranges (by simp [begun, Except.toOption, ran])
    | some r =>
      rw [begun] at ranges
      change (exec step q₀ later).map _ = _ at ranges
      rw [ran] at ranges
      exact ⟨q₀, r.1, r.2, rfl, ran, Option.some.inj ranges,
        (writes_exactly (by decide) begun (Reach.of_exec ran)).1⟩

end Writing

end CircuitsUart
