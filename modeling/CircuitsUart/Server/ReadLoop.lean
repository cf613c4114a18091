import CircuitsUart.Framing.Operations
import CircuitsUart.Server.Callbacks

/-!
# The polls of one read

`handle_call({:read, timeout}, ..)` polls the port until the framer has a message, each time
with what is left of the timeout. It has no measure of its own: once the timeout is down to 0
a port that always has a byte could be polled for ever.

What ends it is the framer. A poll that brings bytes and no message leaves all of them in the
framer's buffer, and a usable framer's buffer has room for fewer than `Framer.capacity`.

The call is a step function of its own (`poll`): one step for each answer of the port, with the two
readings of the clock that the code makes around it. So a whole call is a run, its polls are the
history, and the theorem is an invariant of that run (`Reading`). `Deadline` is the arithmetic on
its own, on the list of timeouts given and the list of times measured; it holds of times measured
by a clock that may stand still, and asks nothing of how long a poll took.
-/

set_option autoImplicit false

namespace CircuitsUart

open Lib

variable {β : Type}

/-! ## Room in a framer -/

/-- The number of bytes no framer of this kind can hold. -/
def Framer.capacity : Framer β → Nat
  | .none => 1
  | .fourByte _ => 4
  | .line state => state.maxLength + state.separator.length

/-- The same number, from what `init/1` is given. -/
def FramingModule.capacity (framing : FramingModule) (args : Line.Args) : Nat :=
  match framing with
  | .none => 1
  | .fourByte => 4
  | .line => args.maxLength.getD 4096 + (args.separator.getD [10]).length

theorem Framer.capacity_init (m : FramingModule) (args : Line.Args) :
    (init m args : Framer β).capacity = m.capacity args := by
  cases m <;> rfl

variable [Octet β]

theorem Framer.capacity_removeFraming {data : List β} {f f' : Framer β} {rc : Rc}
    {ms : List (Message β)} (h : f.removeFraming data = some (rc, ms, f')) :
    f'.capacity = f.capacity := by
  rcases removeFraming_cases h with ⟨rfl, rfl, -⟩ | ⟨_, _, rfl, rfl, -⟩ |
    ⟨_, _, rfl, rfl, hsep, hmax, -⟩
  · rfl
  · rfl
  · rw [capacity, capacity, hsep, hmax]

theorem Framer.capacity_operate {f f' : Framer β} {op : Op β} {out : List (Told β)}
    (h : f.operate op = some (f', out)) : f'.capacity = f.capacity := by
  cases op with
  | addFraming data =>
    obtain ⟨rfl, -⟩ := by simpa [operate] using h
    rfl
  | removeFraming data =>
    cases hr : f.removeFraming data with
    | none => exact absurd h (by simp [operate, hr])
    | some q =>
      obtain ⟨rc, ms, g⟩ := q
      obtain ⟨rfl, -⟩ := by simpa [operate, hr] using h
      exact capacity_removeFraming hr
  | frameTimeout =>
    obtain ⟨rfl, -⟩ := by simpa [operate] using h
    cases f <;> rfl
  | flush direction =>
    obtain ⟨rfl, -⟩ := by simpa [operate] using h
    cases f with
    | none => rfl
    | fourByte rxBuffer => rfl
    | line state => cases direction <;> rfl

theorem Framer.capacity_reach {f f' : Framer β} {h : List (Told β)}
    (r : Reach operate anyStep f h f') : f'.capacity = f.capacity := by
  induction r with
  | start => rfl
  | step _ _ took ih => rw [capacity_operate took, ih]

/-- A usable framer holds fewer bytes than that. -/
theorem Framer.Usable.buffered_lt {f : Framer β} (h : f.Usable) :
    f.buffered.length < f.capacity := by
  cases f with
  | none => exact Nat.one_pos
  | fourByte rxBuffer => exact h
  | line state =>
    have hshort := Line.State.Ok.short h
    have hfits := Line.State.Ok.fits h
    simp only [buffered, capacity, List.length_append]
    omega

omit [Octet β] in
theorem FourByte.Process.kept {t t' : List β} {ms : List (Message β)} (h : Process t ms t')
    (hms : ms = []) : t' = t := by
  cases h with
  | short _ => rfl
  | batch _ => exact absurd hms (by simp)

/-- Bytes that make no message are all kept. -/
theorem Framer.buffered_of_no_message {data : List β} {f f' : Framer β} {rc : Rc}
    (h : f.removeFraming data = some (rc, [], f')) :
    f'.buffered.length = f.buffered.length + data.length := by
  rcases removeFraming_cases h with ⟨-, -, -, hms⟩ | ⟨r, r', rfl, rfl, hp, -⟩ |
    ⟨s, s', rfl, rfl, -, -, hp, -⟩
  · exact absurd hms (by simp)
  · have hkept := hp.kept rfl
    rw [buffered, hkept]
    exact List.length_append
  · have hbytes := congrArg List.length hp.conserved
    simpa [buffered, Nat.add_assoc] using hbytes

namespace Server

/-! ## The rounds of a read call -/

/-- What the rest of a poll is given: the response, the clock when `elapsed` is taken and the
clock when the next poll begins. -/
structure Answer (β : Type) where
  response : Response β
  now : Int
  clock : Int

/-- A poll that was answered: the timeout the port was given, the time measured, the answer. -/
structure Poll (β : Type) where
  timeout : Nat
  elapsed : Int
  response : Response β

/-- The port answers the poll a read call waits for; `none` when the call has returned. -/
def poll (ran : Ran β) (a : Answer β) : Option (Ran β × List (Poll β)) :=
  match ran.pending with
  | none => none
  | some p =>
    match p.command, p.cont with
    | .read timeout, .reading _ callTime =>
      match resume ran.state ran.timers p a.now a.clock a.response with
      | none => none
      | some ran' => some (ran', [⟨timeout, a.now - callTime, a.response⟩])
    | _, _ => none

/-- When the poll that waits began. -/
def callTime (ran : Ran β) : Option Int :=
  match ran.pending with
  | some ⟨_, _, .reading _ callTime⟩ => some callTime
  | _ => none

/-- The clock does not run backwards. -/
def InOrder (ran : Ran β) (a : Answer β) : Prop :=
  a.now ≤ a.clock ∧ ∀ began ∈ callTime ran, began ≤ a.now

instance (ran : Ran β) (a : Answer β) : Decidable (InOrder ran a) :=
  inferInstanceAs (Decidable (_ ∧ _))

/-- The timeout of the poll that waits, if one does. -/
def stillAsked (ran : Ran β) : List Nat :=
  match ran.pending with
  | some ⟨_, .read timeout, _⟩ => [timeout]
  | _ => []

/-- The timeouts the port was given, poll after poll. -/
def timeouts (h : List (Poll β)) (ran : Ran β) : List Nat := h.map Poll.timeout ++ stillAsked ran

/-! ### What is left of a timeout -/

/-- Timeouts that go down, each within what the times measured before it leave of `total`. -/
structure Deadline (total : Nat) (ts : List Nat) (es : List Int) : Prop where
  sorted : ts.Pairwise (· ≥ ·)
  within : ∀ i t : Nat, ts[i]? = some t → (t : Int) ≤ max (total - (es.take i).sum) 0

section deadline

omit [Octet β]

variable {total t : Nat} {ts : List Nat} {es : List Int} {e : Int}

theorem Deadline.nil (total : Nat) : Deadline total [] [] :=
  ⟨.nil, fun i t h => absurd h (by simp)⟩

theorem Deadline.singleton (total : Nat) : Deadline total [total] [] := by
  refine ⟨List.pairwise_singleton _ _, ?_⟩
  intro i t h
  rw [List.getElem?_singleton] at h
  split at h
  · obtain rfl := Option.some.inj h
    simp
  · exact absurd h (by simp)

/-- The time measured in the last poll bounds no poll so far. -/
theorem Deadline.measured (d : Deadline total (ts ++ [t]) es) (hlen : es.length = ts.length) :
    Deadline total (ts ++ [t]) (es ++ [e]) := by
  refine ⟨d.sorted, ?_⟩
  intro i t' h
  have hi : i < (ts ++ [t]).length := (List.getElem?_eq_some_iff.mp h).1
  rw [List.length_append, List.length_singleton] at hi
  rw [List.take_append_of_le_length (by omega)]
  exact d.within i t' h

/-- A further poll, on what is left of the last one's timeout. -/
theorem Deadline.retry (d : Deadline total (ts ++ [t]) es) (hlen : es.length = ts.length)
    (he : 0 ≤ e) : Deadline total (ts ++ [t] ++ [(t - e).toNat]) (es ++ [e]) := by
  have hlast : (t : Int) ≤ max (total - es.sum) 0 := by
    have := d.within ts.length t (by simp)
    rwa [← hlen, List.take_length] at this
  refine ⟨?_, ?_⟩
  · rw [List.pairwise_append]
    refine ⟨d.sorted, List.pairwise_singleton _ _, ?_⟩
    intro x hx y hy
    obtain rfl := List.mem_singleton.mp hy
    have hxt : t ≤ x := by
      rcases List.mem_append.mp hx with hx | hx
      · exact (List.pairwise_append.mp d.sorted).2.2 x hx t (List.mem_singleton.mpr rfl)
      · exact (List.mem_singleton.mp hx).ge
    show (t - e).toNat ≤ x
    omega
  · intro i t' h
    by_cases hi : i < (ts ++ [t]).length
    · rw [List.getElem?_append_left hi] at h
      exact (d.measured hlen).within i t' h
    · rw [List.getElem?_append_right (Nat.le_of_not_lt hi), List.getElem?_singleton] at h
      split at h
      · obtain rfl := Option.some.inj h
        have hall : (es ++ [e]).take i = es ++ [e] := by
          apply List.take_of_length_le
          simp only [List.length_append, List.length_singleton] at hi ⊢
          omega
        rw [hall, List.sum_append, List.sum_singleton]
        omega
      · exact absurd h (by simp)

end deadline

/-! ### One round -/

omit [Octet β] in
theorem handleRead_cases (s : State β) (timers : Timers) (pid : Pid) (timeout : Nat) (clock : Int)
    (out : List (Label β)) :
    ((handleRead s timers pid timeout clock out).pending = none ∧
      ∃ reply, .replied pid reply ∈ (handleRead s timers pid timeout clock out).out) ∨
    (handleRead s timers pid timeout clock out).pending =
        some ⟨pid, .read timeout, .reading timeout clock⟩ ∧
      (handleRead s timers pid timeout clock out).state = s := by
  unfold handleRead
  cases hq : s.queuedMessages with
  | nil => exact .inr ⟨rfl, rfl⟩
  | cons message rest => exact .inl ⟨rfl, .message message, by simp [replyWith]⟩

/-- From the response on, a read returns, or bytes that made no message are in the framer
and the port is polled for what is left of the timeout. -/
theorem resumeReading_cases {s : State β} {timers : Timers} {pid : Pid} {timeout : Nat}
    {callTime now clock : Int} (hu : s.framer.Usable) (r : Response β) :
    ∃ ran, resumeReading s timers pid timeout callTime now clock r = some ran ∧
      ((ran.pending = none ∧ ∃ reply, .replied pid reply ∈ ran.out) ∨
        ran.pending = some ⟨pid, .read (timeout - (now - callTime)).toNat,
          .reading (timeout - (now - callTime)).toNat clock⟩ ∧
        ran.state.framer.Usable ∧ ran.state.framer.capacity = s.framer.capacity ∧
        s.framer.buffered.length < ran.state.framer.buffered.length) := by
  cases r with
  | ok => exact ⟨_, rfl, .inl ⟨rfl, _, List.mem_singleton.mpr rfl⟩⟩
  | error reason => exact ⟨_, rfl, .inl ⟨rfl, _, List.mem_singleton.mpr rfl⟩⟩
  | options opts => exact ⟨_, rfl, .inl ⟨rfl, _, List.mem_singleton.mpr rfl⟩⟩
  | signals sig => exact ⟨_, rfl, .inl ⟨rfl, _, List.mem_singleton.mpr rfl⟩⟩
  | data bytes =>
    cases bytes with
    | nil => exact ⟨_, rfl, .inl ⟨rfl, _, List.mem_singleton.mpr rfl⟩⟩
    | cons b bs =>
      obtain ⟨rc, ms, f', hr, hu'⟩ := Framer.exists_removeFraming hu (b :: bs)
      cases ms with
      | cons firstMessage rest =>
        refine ⟨_, by simp only [resumeReading, hr]; rfl, .inl ⟨rfl, .message firstMessage, ?_⟩⟩
        simp [replyWith]
      | nil =>
        refine ⟨_, by simp only [resumeReading, hr]; rfl, ?_⟩
        rcases handleRead_cases (handleFramingTimer { s with framer := f' } timers rc).state
          (handleFramingTimer { s with framer := f' } timers rc).timers pid
          (timeout - (now - callTime)).toNat clock [.received (b :: bs) rc []
            (handleFramingTimer { s with framer := f' } timers rc).started]
          with hreturns | ⟨hwaits, hstate⟩
        · exact .inl hreturns
        · refine .inr ⟨hwaits, ?_⟩
          rw [hstate, handleFramingTimer_framer]
          refine ⟨hu', Framer.capacity_removeFraming hr, ?_⟩
          rw [Framer.buffered_of_no_message hr, List.length_cons]
          omega

/-! ### Whole calls -/

/-- What holds of a read call of `pid` with `timeout`, whose framer can hold less than `n`
bytes, after the polls `h`. A poll that waits was preceded by as many replies as there are
bytes in the framer, at most. -/
structure Reading (pid : Pid) (timeout n : Nat) (h : List (Poll β)) (ran : Ran β) : Prop where
  deadline : Deadline timeout (timeouts h ran) (h.map Poll.elapsed)
  polls : h.length ≤ n
  returns : ran.pending = none → ∃ reply, .replied pid reply ∈ ran.out
  waits : ∀ p, ran.pending = some p → ∃ t callTime, p = ⟨pid, .read t, .reading t callTime⟩ ∧
    ran.state.framer.Usable ∧ ran.state.framer.capacity = n ∧
    h.length ≤ ran.state.framer.buffered.length

/-- A call that waits can wait for one poll more. -/
theorem Reading.polls_lt {pid : Pid} {timeout n : Nat} {h : List (Poll β)} {ran : Ran β}
    (k : Reading pid timeout n h ran) (hw : ran.pending ≠ none) : h.length < n := by
  obtain ⟨p, hp⟩ := Option.ne_none_iff_exists'.mp hw
  obtain ⟨t, callTime, -, hu, hcap, hle⟩ := k.waits p hp
  have hlt := hu.buffered_lt
  omega

/-- A call that has returned. -/
theorem Reading.of_returned {pid : Pid} {timeout n : Nat} {h : List (Poll β)} {ran : Ran β}
    (deadline : Deadline timeout (h.map Poll.timeout) (h.map Poll.elapsed)) (polls : h.length ≤ n)
    (returned : ran.pending = none) (reply : ∃ reply, .replied pid reply ∈ ran.out) :
    Reading pid timeout n h ran where
  deadline := by
    rwa [timeouts, stillAsked, returned, List.append_nil]
  polls := polls
  returns _ := reply
  waits p hp := absurd (returned.symm.trans hp) (by simp)

/-- A call that waits. -/
theorem Reading.of_waiting {pid : Pid} {timeout t n : Nat} {callTime : Int} {h : List (Poll β)}
    {ran : Ran β} (deadline : Deadline timeout (h.map Poll.timeout ++ [t]) (h.map Poll.elapsed))
    (polls : h.length ≤ n) (waits : ran.pending = some ⟨pid, .read t, .reading t callTime⟩)
    (hu : ran.state.framer.Usable) (hcap : ran.state.framer.capacity = n)
    (hle : h.length ≤ ran.state.framer.buffered.length) : Reading pid timeout n h ran where
  deadline := by
    rwa [timeouts, stillAsked, waits]
  polls := polls
  returns hnone := absurd (waits.symm.trans hnone) (by simp)
  waits p hp := by
    obtain rfl := Option.some.inj (waits.symm.trans hp)
    exact ⟨t, callTime, rfl, hu, hcap, hle⟩

/-- The call begins: a queued message, or a poll with the timeout asked for. -/
theorem Reading.start {s : State β} (hu : s.framer.Usable) (timers : Timers) (pid : Pid)
    (timeout : Nat) (clock : Int) :
    Reading pid timeout s.framer.capacity [] (handleCall s timers pid clock (.read timeout)) := by
  rcases handleRead_cases s timers pid timeout clock [] with ⟨hp, hreply⟩ | ⟨hp, hs⟩
  · exact .of_returned (.nil timeout) (Nat.zero_le _) hp hreply
  · refine .of_waiting (.singleton timeout) (Nat.zero_le _) hp ?_ ?_ (Nat.zero_le _)
    · rw [handleCall, hs]
      exact hu
    · rw [handleCall, hs]

/-- One round. -/
theorem Reading.poll {pid : Pid} {timeout n : Nat} {h : List (Poll β)} {ran : Ran β} {a : Answer β}
    (k : Reading pid timeout n h ran) (hw : ran.pending ≠ none) (order : InOrder ran a) :
    ∃ ran' out, Server.poll ran a = some (ran', out) ∧ Reading pid timeout n (h ++ out) ran' := by
  have hlt := k.polls_lt hw
  obtain ⟨p, hp⟩ := Option.ne_none_iff_exists'.mp hw
  obtain ⟨t, callTime, rfl, hu, hcap, hle⟩ := k.waits p hp
  obtain ⟨ran', hres, hran'⟩ := @resumeReading_cases _ _ ran.state ran.timers pid t callTime a.now
    a.clock hu a.response
  have helapsed : 0 ≤ a.now - callTime := by
    apply Int.sub_nonneg.mpr
    apply order.2 callTime
    simp [Server.callTime, hp]
  have hdeadline := k.deadline
  rw [timeouts, stillAsked, hp] at hdeadline
  refine ⟨ran', [⟨t, a.now - callTime, a.response⟩], ?_, ?_⟩
  · simp only [Server.poll, hp, resume, hres]
  have hlength : (h ++ [(⟨t, a.now - callTime, a.response⟩ : Poll β)]).length = h.length + 1 :=
    List.length_append
  rcases hran' with ⟨hnone, hreply⟩ | ⟨hwaits, hu', hcap', hgrew⟩
  · refine .of_returned ?_ (by omega) hnone hreply
    rw [List.map_append, List.map_append]
    exact hdeadline.measured (by simp)
  · refine .of_waiting ?_ (by omega) hwaits hu' (hcap'.trans hcap) (by omega)
    rw [List.map_append, List.map_append]
    exact hdeadline.retry (by simp) helapsed

/-- Any number of rounds. -/
theorem Reading.reach {pid : Pid} {timeout n : Nat} {start ran : Ran β} {h : List (Poll β)}
    (k : Reading pid timeout n [] start) (r : Reach Server.poll (fun _ => InOrder) start h ran) :
    Reading pid timeout n h ran := by
  induction r with
  | start => exact k
  | @step _ ran _ a _ _ order took ih =>
    have hw : ran.pending ≠ none := by
      intro hnone
      exact absurd took (by simp [Server.poll, hnone])
    obtain ⟨ran', out, heq, k'⟩ := ih.poll hw order
    rw [took] at heq
    obtain ⟨rfl, rfl⟩ := by simpa using heq
    exact k'

/-- **A read ends and keeps to its timeout.** Take a server whose framer has been through
anything since `init/1`, and answer the polls of one read call in any way, on a clock that
does not run backwards. The timeouts of the polls go down, each within what the polls before
it have left of the one asked for, or 0. There are no more polls, and so no more replies,
than the framer's capacity; after that many the call has returned, with its reply. Until it
has, whatever the port answers is taken. -/
theorem read_loop {m : FramingModule} {args : Line.Args}
    (hargs : m = .line → 1 ≤ args.maxLength.getD 4096 ∧ args.separator.getD [10] ≠ [])
    {told : List (Told β)} {s : State β}
    (hf : Reach Framer.operate anyStep (Framer.init m args) told s.framer) (timers : Timers)
    (pid : Pid) (timeout : Nat) (clock : Int) {h : List (Poll β)} {ran : Ran β}
    (r : Reach poll (fun _ => InOrder) (handleCall s timers pid clock (.read timeout)) h ran) :
    (timeouts h ran).Pairwise (· ≥ ·) ∧
      (∀ i t : Nat, (timeouts h ran)[i]? = some t →
        (t : Int) ≤ max (timeout - ((h.map Poll.elapsed).take i).sum) 0) ∧
      h.length ≤ m.capacity args ∧
      (h.length = m.capacity args → ran.pending = none) ∧
      (ran.pending = none → ∃ reply, .replied pid reply ∈ ran.out) ∧
      (ran.pending ≠ none → ∀ a, InOrder ran a → ∃ ran' p, poll ran a = some (ran', [p])) := by
  have hu : s.framer.Usable := (Framer.usable_init hargs).reach hf
  have k := (Reading.start hu timers pid timeout clock).reach r
  rw [Framer.capacity_reach hf, Framer.capacity_init] at k
  refine ⟨k.deadline.sorted, k.deadline.within, k.polls, ?_, k.returns, ?_⟩
  · intro hfull
    by_contra hw
    exact absurd hfull (k.polls_lt hw).ne
  · intro hw a order
    obtain ⟨ran', out, heq, -⟩ := k.poll hw order
    have hone : ∃ p, out = [p] := by
      unfold poll at heq
      split at heq
      · exact absurd heq (by simp)
      · split at heq
        · split at heq
          · exact absurd heq (by simp)
          · exact ⟨_, (Prod.mk.inj (Option.some.inj heq)).2.symm⟩
        · exact absurd heq (by simp)
    obtain ⟨p, rfl⟩ := hone
    exact ⟨ran', p, heq⟩

/-- Two polls of a framer with room for two bytes, the second past the timeout. -/
theorem read_loop_slow :
    ∃ (h : List (Poll UInt8)) (ran : Ran UInt8), timeouts h ran = [5, 2, 0] ∧
      (timeouts h ran).Pairwise (· ≥ ·) ∧ h.length ≤ 3 := by
  let s : State UInt8 := { framer := .line (Line.init ⟨some 2, some [10]⟩) }
  let answers : List (Answer UInt8) := [⟨.data [65], 3, 3⟩, ⟨.data [66], 9, 9⟩]
  have keeps : permitted poll (fun ran a => decide (InOrder ran a))
      (handleCall s {} 0 0 (.read 5)) answers = true := by decide
  have r : Reach poll (fun _ => InOrder) (handleCall s {} 0 0 (.read 5)) _ _ :=
    (Reach.of_permitted .start keeps rfl).weaken fun _ _ _ => of_decide_eq_true
  have hread := @read_loop UInt8 _ .line ⟨some 2, some [10]⟩ (fun _ => ⟨by decide, by decide⟩) []
    s .start {} 0 5 0 _ _ r
  exact ⟨_, _, rfl, hread.1, hread.2.2.1⟩

end Server

end CircuitsUart
