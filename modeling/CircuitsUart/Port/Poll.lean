import CircuitsUart.Port.Writing

/-!
# How long `poll` may sleep

`update_timeout` and `uart_add_poll_events` of `uart_comm_unix.c`, and the arithmetic they share
with `late`. A timeout of `poll` is an extended natural number, negative ones being `⊤`; one
deadline allows what is left to it, and `⊤` where that is more than an `int` holds. Read so,
`update_timeout` is `min`, and neither the order of the deadlines nor the wrapping subtraction
shows.

The clocks are words of 64 bits that count milliseconds, and a difference of two of them is read as
negative if it is more than a year. `Within` is the condition under which that is right, and every
deadline the program sets meets it. Each deadline is compared with a clock of its own, because the
source reads the clock again for each.
-/

set_option autoImplicit false

namespace CircuitsUart

open Port

namespace Program

variable {β : Type}

/-! ## The code -/

/-- `INT32_MAX`. -/
def int32Max : UInt64 := 2147483647

/-- `update_timeout`. -/
def updateTimeout (deadline clock : UInt64) (timeout : Int) : Int :=
  let timeToWait := deadline - clock
  if timeToWait > oneYearMillis then 0
  -- over 24 days is forever, and does not lower the timeout
  else if timeToWait > int32Max then timeout
  else
    let ourTimeout := toInt timeToWait.toNat
    if timeout < 0 ∨ ourTimeout < timeout then ourTimeout else timeout

/-- What `uart_add_poll_events` leaves for `poll`, and its result. -/
structure PollEvents where
  fd : Option Nat
  pollin : Bool
  pollout : Bool
  timeout : Int
  count : Nat
  deriving DecidableEq, Repr

/-- `uart_add_poll_events`. Each deadline is compared with a clock of its own. -/
def uartAddPollEvents (writeClock readClock : UInt64) (timeout : Int) (p : Program β) :
    PollEvents :=
  let write := p.uart.writeData.isSome
  let timeout :=
    if write then updateTimeout p.uart.writeCompletionDeadline writeClock timeout else timeout
  let timeout :=
    if p.uart.readPending then updateTimeout p.uart.readCompletionDeadline readClock timeout
    else timeout
  { fd := p.uart.fd
    pollin := p.uart.readPending || p.uart.activeModeEnabled
    pollout := write
    timeout := timeout
    count := if write || p.uart.readPending || p.uart.activeModeEnabled then 1 else 0 }

end Program

namespace Port

/-- What can be pending. -/
inductive Transfer
  | write
  | read
  deriving DecidableEq, Repr

/-- The operation is pending. -/
def Uart.waits (u : Uart) : Transfer → Bool
  | .write => u.writeData.isSome
  | .read => u.readPending

/-- The deadline of the operation that is, or was last, pending. -/
def Uart.completionDeadline (u : Uart) : Transfer → UInt64
  | .write => u.writeCompletionDeadline
  | .read => u.readCompletionDeadline

/-- `update_timeout` for the pending operations, in the order of the list. -/
def Uart.updateAll (u : Uart) (now : Transfer → UInt64) (ops : List Transfer) (timeout : Int) :
    Int :=
  ops.foldl (fun timeout op =>
    if u.waits op then Program.updateTimeout (u.completionDeadline op) (now op) timeout
    else timeout) timeout

/-- The timeout `poll` is called with: wait forever unless told otherwise. -/
def Uart.pollTimeout (u : Uart) (now : Transfer → UInt64) : Int :=
  u.updateAll now [.write, .read] (-1)

end Port

namespace Program

variable {β : Type}

theorem timeout_uartAddPollEvents (p : Program β) (now : Transfer → UInt64) (timeout : Int) :
    (p.uartAddPollEvents (now .write) (now .read) timeout).timeout =
      p.uart.updateAll now [.write, .read] timeout := rfl

/-! ## A deadline and the clock -/

/-- The deadline is no more than a year ahead, and the clock has not run for 292 million years. -/
structure Within (deadline now : UInt64) : Prop where
  year : deadline.toNat ≤ now.toNat + 31536000000
  clock : now.toNat < 2 ^ 63

/-- The time left, none if the deadline is past. -/
def left (deadline now : UInt64) : Nat := deadline.toNat - now.toNat

/-- The subtraction wraps for a deadline that is past, to more than a year. -/
theorem Within.toNat_sub {deadline now : UInt64} (within : Within deadline now) :
    (deadline.toNat ≥ now.toNat ∧ (deadline - now).toNat = left deadline now) ∨
      (deadline.toNat < now.toNat ∧ 31536000000 < (deadline - now).toNat) := by
  have hd := deadline.toNat_lt
  have hc := within.clock
  rw [UInt64.toNat_sub]
  unfold left
  omega

/-- **Late is at the deadline or past it.** -/
theorem Within.late_iff {deadline now : UInt64} (within : Within deadline now) :
    late deadline now = true ↔ deadline ≤ now := by
  have year := within.year
  have one : oneYearMillis.toNat = 31536000000 := rfl
  unfold late
  simp only [decide_eq_true_eq, ← UInt64.toNat_inj, gt_iff_lt, UInt64.lt_iff_toNat_lt,
    UInt64.le_iff_toNat_le, one, UInt64.toNat_zero]
  rcases within.toNat_sub with ⟨ahead, sub⟩ | ⟨past, sub⟩
  · rw [sub]
    unfold left
    omega
  · omega

theorem left_eq_zero {deadline now : UInt64} : left deadline now = 0 ↔ deadline ≤ now := by
  rw [UInt64.le_iff_toNat_le, left, Nat.sub_eq_zero_iff_le]

theorem toInt_natCast {n : Nat} (fits : n < 2 ^ 31) : toInt n = n := by
  unfold toInt
  rw [BitVec.toInt_ofInt, Int.bmod_eq_of_le (by omega) (by omega)]

/-- **`update_timeout`, case by case**: a deadline that is past, one that is far, and the lesser
of two timeouts. -/
theorem Within.updateTimeout_eq {deadline now : UInt64} (within : Within deadline now)
    (timeout : Int) : updateTimeout deadline now timeout =
      if deadline.toNat < now.toNat then 0
      else if 2147483647 < left deadline now then timeout
      else if timeout < 0 ∨ (left deadline now : Int) < timeout then left deadline now
      else timeout := by
  have year := within.year
  have one : oneYearMillis.toNat = 31536000000 := rfl
  have max : int32Max.toNat = 2147483647 := rfl
  unfold updateTimeout
  simp only [gt_iff_lt, UInt64.lt_iff_toNat_lt, one, max]
  rcases within.toNat_sub with ⟨ahead, sub⟩ | ⟨past, sub⟩
  · have inYear : ¬ 31536000000 < left deadline now := by
      unfold left
      omega
    rw [sub, if_neg inYear, if_neg (Nat.not_lt.mpr ahead)]
    split
    · rfl
    · next fits => rw [toInt_natCast (by omega)]
  · rw [if_pos sub, if_pos past]

/-! ## Timeouts as extended natural numbers -/

/-- A timeout of `poll`: a negative one is forever. -/
def toSleep (timeout : Int) : ℕ∞ := if timeout < 0 then ⊤ else timeout.toNat

/-- What a deadline allows: no more than is left, unless that is over 24 days. -/
def allowed (deadline now : UInt64) : ℕ∞ :=
  if 2147483647 < left deadline now then ⊤ else left deadline now

/-- The timeouts `poll` is called with. -/
def Regular (timeout : Int) : Prop := timeout = -1 ∨ 0 ≤ timeout ∧ timeout ≤ 2147483647

theorem toSleep_nonneg {timeout : Int} (h : 0 ≤ timeout) : toSleep timeout = timeout.toNat :=
  if_neg (Int.not_lt.mpr h)

/-- On the timeouts `poll` is called with, nothing is lost. -/
theorem toSleep_inj {t t' : Int} (h : Regular t) (h' : Regular t')
    (same : toSleep t = toSleep t') : t = t' := by
  rcases h with rfl | ⟨h, -⟩ <;> rcases h' with rfl | ⟨h', -⟩
  · rfl
  · rw [toSleep_nonneg h'] at same
    exact absurd same.symm (ENat.natCast_ne_top _)
  · rw [toSleep_nonneg h] at same
    exact absurd same (ENat.natCast_ne_top _)
  · rw [toSleep_nonneg h, toSleep_nonneg h', Nat.cast_inj] at same
    omega

/-- **`update_timeout` is `min`.** -/
theorem Within.toSleep_updateTimeout {deadline now : UInt64} (within : Within deadline now)
    {timeout : Int} (regular : Regular timeout) :
    toSleep (updateTimeout deadline now timeout) =
      min (toSleep timeout) (allowed deadline now) := by
  rw [within.updateTimeout_eq, allowed]
  split
  · next past =>
    have none_left : left deadline now = 0 := Nat.sub_eq_zero_of_le past.le
    rw [none_left, if_neg (by omega)]
    exact (min_eq_right bot_le).symm
  split
  · exact (min_eq_left le_top).symm
  split
  · next lower =>
    rw [toSleep_nonneg (Int.natCast_nonneg _), Int.toNat_natCast, min_eq_right]
    rcases regular with rfl | ⟨nonneg, -⟩
    · exact le_top
    · rw [toSleep_nonneg nonneg, Nat.cast_le]
      omega
  · next kept =>
    obtain ⟨nonneg, le⟩ := not_or.mp kept
    rw [toSleep_nonneg (Int.not_lt.mp nonneg), min_eq_left]
    rw [Nat.cast_le]
    omega

theorem Within.regular_updateTimeout {deadline now : UInt64} (within : Within deadline now)
    {timeout : Int} (regular : Regular timeout) :
    Regular (updateTimeout deadline now timeout) := by
  rw [within.updateTimeout_eq]
  split
  · exact .inr ⟨le_rfl, by omega⟩
  split
  · exact regular
  split
  · exact .inr ⟨Int.natCast_nonneg _, by omega⟩
  · exact regular

theorem one_le_allowed {deadline now : UInt64} : 1 ≤ allowed deadline now ↔ ¬ deadline ≤ now := by
  rw [← left_eq_zero, allowed]
  split
  · next far =>
    refine iff_of_true le_top ?_
    omega
  · rw [← Nat.cast_one, Nat.cast_le]
    omega

end Program

/-! ## The timeout of `poll` -/

namespace Port.Uart

open Program

variable {u : Uart} {now : Transfer → UInt64}

/-- Every deadline that counts is within a year. -/
def AllWithin (u : Uart) (now : Transfer → UInt64) : Prop :=
  ∀ op, u.waits op = true → Within (u.completionDeadline op) (now op)

theorem AllWithin.regular_updateAll (within : u.AllWithin now) (ops : List Transfer)
    {timeout : Int} (regular : Regular timeout) : Regular (u.updateAll now ops timeout) := by
  induction ops generalizing timeout with
  | nil => exact regular
  | cons op ops ih =>
    apply ih
    dsimp only
    split
    · next waits => exact (within op waits).regular_updateTimeout regular
    · exact regular

/-- **A sleep is allowed if every pending operation allows it.** The order does not matter. -/
theorem AllWithin.le_toSleep_updateAll (within : u.AllWithin now) (ops : List Transfer)
    {timeout : Int} (regular : Regular timeout) (s : ℕ∞) :
    s ≤ toSleep (u.updateAll now ops timeout) ↔
      s ≤ toSleep timeout ∧
        ∀ op ∈ ops, u.waits op = true → s ≤ allowed (u.completionDeadline op) (now op) := by
  induction ops generalizing timeout with
  | nil => simp [updateAll]
  | cons op ops ih =>
    rw [List.forall_mem_cons, ← and_assoc]
    by_cases waits : u.waits op = true
    · have step : u.updateAll now (op :: ops) timeout =
          u.updateAll now ops (updateTimeout (u.completionDeadline op) (now op) timeout) := by
        rw [updateAll, List.foldl_cons, if_pos waits]
        rfl
      have sleep := (within op waits).toSleep_updateTimeout regular
      rw [step, ih ((within op waits).regular_updateTimeout regular), sleep, le_min_iff]
      simp only [waits, true_implies]
    · have step : u.updateAll now (op :: ops) timeout = u.updateAll now ops timeout := by
        rw [updateAll, List.foldl_cons, if_neg waits]
        rfl
      rw [step, ih regular]
      simp only [waits, Bool.false_eq_true, false_implies, and_true]

/-- The operations may be looked at in any order. -/
theorem AllWithin.updateAll_congr (within : u.AllWithin now) {ops ops' : List Transfer}
    (same : ∀ op, op ∈ ops ↔ op ∈ ops') {timeout : Int} (regular : Regular timeout) :
    u.updateAll now ops timeout = u.updateAll now ops' timeout := by
  apply toSleep_inj (within.regular_updateAll ops regular) (within.regular_updateAll ops' regular)
  apply eq_of_forall_le_iff
  intro s
  simp only [within.le_toSleep_updateAll _ regular, same]

theorem AllWithin.le_toSleep_pollTimeout (within : u.AllWithin now) (s : ℕ∞) :
    s ≤ toSleep (u.pollTimeout now) ↔
      ∀ op, u.waits op = true → s ≤ allowed (u.completionDeadline op) (now op) := by
  have members : ∀ op : Transfer, op ∈ [Transfer.write, Transfer.read] := by
    intro op
    cases op <;> simp
  rw [pollTimeout, within.le_toSleep_updateAll _ (.inl rfl)]
  simp [toSleep, members]

theorem AllWithin.regular_pollTimeout (within : u.AllWithin now) : Regular (u.pollTimeout now) :=
  within.regular_updateAll _ (.inl rfl)

/-- Forever, if every deadline is over 24 days away. -/
theorem AllWithin.pollTimeout_eq_neg_one (within : u.AllWithin now) :
    u.pollTimeout now = -1 ↔
      ∀ op, u.waits op = true → 2147483647 < left (u.completionDeadline op) (now op) := by
  have forever : u.pollTimeout now = -1 ↔ ⊤ ≤ toSleep (u.pollTimeout now) := by
    rcases within.regular_pollTimeout with same | ⟨nonneg, -⟩
    · rw [same]
      exact iff_of_true rfl le_top
    · rw [toSleep_nonneg nonneg, top_le_iff]
      exact iff_of_false (by omega) (ENat.natCast_ne_top _)
  rw [forever, within.le_toSleep_pollTimeout]
  refine forall_congr' fun op => imp_congr_right fun _ => ?_
  rw [top_le_iff, allowed]
  split
  · next far => exact iff_of_true rfl far
  · next near => exact iff_of_false (ENat.natCast_ne_top _) near

/-- No deadline that is nearer is slept past. -/
theorem AllWithin.pollTimeout_le (within : u.AllWithin now) :
    u.pollTimeout now = -1 ∨ 0 ≤ u.pollTimeout now ∧
      ∀ op, u.waits op = true → u.pollTimeout now ≤ left (u.completionDeadline op) (now op) := by
  refine within.regular_pollTimeout.imp_right fun ⟨nonneg, fits⟩ => ⟨nonneg, fun op waits => ?_⟩
  have le := (within.le_toSleep_pollTimeout _).mp le_rfl op waits
  rw [toSleep_nonneg nonneg, allowed] at le
  split at le
  · next far => omega
  · rw [Nat.cast_le] at le
    omega

/-- `poll` returns at once exactly when an operation is due. -/
theorem AllWithin.pollTimeout_eq_zero (within : u.AllWithin now) :
    u.pollTimeout now = 0 ↔ ∃ op, u.waits op = true ∧ u.completionDeadline op ≤ now op := by
  have zero : u.pollTimeout now = 0 ↔ ¬ 1 ≤ toSleep (u.pollTimeout now) := by
    rcases within.regular_pollTimeout with same | ⟨nonneg, -⟩
    · rw [same]
      exact iff_of_false (by omega) (not_not.mpr le_top)
    · rw [toSleep_nonneg nonneg, ← Nat.cast_one, Nat.cast_le]
      omega
  rw [zero, within.le_toSleep_pollTimeout]
  simp only [one_le_allowed, not_forall, not_not, exists_prop]

end Port.Uart

end CircuitsUart
