import CircuitsUart.Server.Held

/-!
# What a flush leaves in the server

`handle_call({:flush, direction}, ..)` flushes the framer before it asks the port, and replies
what the port answers. The queue it leaves alone.

A flush is three things at three times: the framer is emptied when the call is taken, the kernel's
buffers when the port handles the request, and the client hears of it when the response is taken.
This module has the first and the last. `Flushing` joins them: a callback that waits for the answer
to a flush has already emptied the framer, and no other turn can come in between, because the
server waits inside the callback.

`Label.reported` leaves out what was queued before: messages in the queue had passed the framer,
and a flush does not take them back.
-/

set_option autoImplicit false

namespace CircuitsUart

/-- A flush of what was received: `TCIFLUSH` or `TCIOFLUSH`. -/
def Direction.receives : Direction → Bool
  | .receive | .both => true
  | .transmit => false

namespace Server

variable {β : Type}

/-- The received bytes that a read returns or a framing timeout reports. -/
def Label.reported : Label β → List β
  | .replied _ (.message m) => m.bytes
  | .timedOut _ framer _ => framer.frameTimeout.1.flatMap Message.bytes
  | _ => []

/-- A callback that waits for a flush has flushed the framer, and replies what it gets. -/
def Flushing (s : State β) (p : Pending β) : Prop :=
  ∀ direction, p.command = .flush direction →
    p.cont = .passing ∧ (direction.receives = true → s.framer.buffered = [])

theorem Asks.notFlush {s : State β} {clock : Int} {call : Call} {command : Command} {cont : Cont β}
    (h : Asks s clock call command cont) (direction : Direction) : command ≠ .flush direction := by
  cases h <;> simp

theorem handleRead_notFlush {s : State β} {timers : Timers} {fromPid : Pid} {timeout : Nat}
    {clock : Int} {out : List (Label β)} {p : Pending β}
    (waits : (handleRead s timers fromPid timeout clock out).pending = some p)
    (direction : Direction) : p.command ≠ .flush direction := by
  unfold handleRead at waits
  split at waits
  · exact absurd waits (by simp [replyWith])
  · obtain rfl := Option.some.inj waits
    simp

theorem reported_reportMessages (s : State β) (notices : List (Notice β)) :
    ∀ l ∈ reportMessages s notices, l.reported = [] := by
  intro l hl
  obtain ⟨dest, id, notice, -, rfl⟩ := mem_reportMessages hl
  rfl

theorem mem_deliveredBytes {out : List (Label β)} {l : Label β} (hl : l ∈ out) {b : β}
    (hb : b ∈ l.bytes) : b ∈ deliveredBytes out := List.mem_flatMap.mpr ⟨l, hl, hb⟩

theorem reported_replied (fromPid : Pid) (reply : Reply β) :
    (Label.replied fromPid reply).reported = (Label.replied fromPid reply).bytes := by
  cases reply with
  | message m => exact (List.append_nil _).symm
  | _ => rfl

variable [Octet β]

/-- A turn that ends waiting for a flush has flushed the framer. -/
theorem Turn.flushing {s : State β} {timers : Timers} {taken : Taken β} {ran : Ran β}
    (h : Turn s timers taken ran) : ∀ p, ran.pending = some p → Flushing ran.state p := by
  intro p waits direction flush
  cases h with
  | ask asks =>
    obtain rfl := Option.some.inj waits
    exact absurd flush (asks.notFlush direction)
  | configure =>
    obtain rfl := Option.some.inj waits
    exact absurd flush (by simp)
  | flush =>
    obtain rfl := Option.some.inj waits
    obtain rfl := Command.flush.inj flush
    refine ⟨rfl, fun receives => ?_⟩
    show (s.framer.flush _).buffered = []
    rw [Framer.buffered_flush, if_neg]
    rintro rfl
    exact absurd receives (by simp [Direction.receives])
  | readMore => exact absurd flush (handleRead_notFlush waits direction)
  | _ => exact absurd waits (by simp [replyWith, resumeOpening, resumeClosing, handleTimedOut])

omit [Octet β] in
theorem timedOut_not_reported {s : State β} {notices : List (Notice β)} {tref : Tref}
    {framer : Framer β} {timeout : Int} :
    .timedOut tref framer timeout ∉ reportMessages s notices := by
  intro mem
  obtain ⟨dest, id, notice, -, sent⟩ := mem_reportMessages mem
  exact absurd sent (by simp)

/-- A framing timeout runs on the framer there is. -/
theorem Turn.timedOut_framer {s : State β} {timers : Timers} {taken : Taken β} {ran : Ran β}
    (h : Turn s timers taken ran) {tref : Tref} {framer : Framer β} {timeout : Int}
    (mem : .timedOut tref framer timeout ∈ ran.out) : framer = s.framer := by
  cases h with
  | configure | opened | flush =>
    simp only [handleConfigure, resumeOpening, handleFlush, callPort, replyWith, reframed] at mem
    split at mem <;> exact absurd mem (by simp)
  | notified =>
    rcases List.mem_cons.mp mem with here | later
    · exact absurd here (by simp)
    · exact absurd later timedOut_not_reported
  | failed => exact absurd mem timedOut_not_reported
  | timedOut =>
    rcases List.mem_cons.mp mem with here | later
    · exact (Label.timedOut.inj here).2.1
    · unfold notifyTimedoutMessages at later
      split at later
      · exact absurd later timedOut_not_reported
      · exact absurd later (by simp)
      · exact absurd later (by simp)
  | readMore =>
    unfold handleRead at mem
    split at mem <;> exact absurd mem (by simp [replyWith, callPort])
  | _ => exact absurd mem (by simp [replyWith, callPort, resumeClosing])

/-- What is reported is delivered, but for a framing timeout, which reports what was held. -/
theorem Turn.reported {s : State β} {timers : Timers} {taken : Taken β} {ran : Ran β}
    (h : Turn s timers taken ran) :
    ∀ l ∈ ran.out, ∀ b ∈ l.reported, b ∈ deliveredBytes ran.out ∨ b ∈ held s := by
  intro l hl b hb
  cases l with
  | replied fromPid reply =>
    rw [reported_replied] at hb
    exact .inl (mem_deliveredBytes hl hb)
  | timedOut tref framer timeout =>
    obtain rfl := h.timedOut_framer hl
    obtain ⟨m, hm, hb⟩ := List.mem_flatMap.mp hb
    exact .inr (List.mem_append_right _ (Framer.bytes_frameTimeout _ m hm b hb))
  | _ => exact absurd hb (by simp [Label.reported])

/-- Data that is notified goes through the framer, and is not queued. -/
theorem Turn.of_data {s : State β} {timers : Timers} {data : List β} {ran : Ran β}
    (h : Turn s timers (.message (.notif (.data data))) ran) :
    ∃ rc ms, s.framer.removeFraming data = some (rc, ms, ran.state.framer) ∧
      ran.state.queuedMessages = s.queuedMessages ∧ ∀ l ∈ ran.out, l.reported = [] := by
  cases h with
  | @notified data rc ms framer framed =>
    refine ⟨rc, ms, ?_, ?_, ?_⟩
    · rw [framed]
      simp [afterData]
    · simp [afterData]
    · intro l hl
      rcases List.mem_cons.mp hl with rfl | hl
      · rfl
      · exact reported_reportMessages _ _ l hl

/-- **The reply to a flush** is what the port answers, and it changes nothing. -/
theorem step_passing {σ σ' : Server β} {now clock : Int} {out : List (Label β)} {p : Pending β}
    (waits : σ.pending = some p) (passing : p.cont = .passing)
    (h : step σ (.turn now clock) = some (σ', out)) :
    ∃ r rest, next σ = some (.response p r, rest) ∧ σ' = ⟨σ.state, σ.timers, none, rest⟩ ∧
      out = [.replied p.fromPid (.port r)] := by
  rcases step_cases h with ⟨m, he, -⟩ | ⟨t, he, -⟩ |
    ⟨now', clock', taken, rest, ran, -, hnext, hrun, rfl, rfl⟩
  · exact absurd he (by simp)
  · exact absurd he (by simp)
  · rcases next_eq_some hnext with ⟨m, -, idle, -⟩ | ⟨p', r, before, after, rfl, waits', -⟩
    · exact absurd (idle.symm.trans waits) (by simp)
    · obtain rfl := Option.some.inj (waits.symm.trans waits')
      simp only [run, resume, passing] at hrun
      obtain rfl := Option.some.inj hrun
      exact ⟨r, rest, hnext, rfl, rfl⟩

end Server

end CircuitsUart
