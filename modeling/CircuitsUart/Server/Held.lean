import CircuitsUart.Server.Ledger

/-!
# What the server holds

Received bytes stay in the queue or in the framer until they are delivered or dropped. A
turn makes none up (`Turn.bytes`), and the turn that answers an `open` or a `close` leaves
what `Turn.cuts` says.

`Ledger` follows the messages, in order and with nothing missing, and for that it has to leave
out the turns that drop something. Here order does not matter and every turn counts: the
statements are inclusions of bytes. They are what a theorem needs that says where a byte
**cannot** turn up, such as in another session than the one it was received in.

`kept` is the reason why that can fail. An `open` drops neither the queue nor, unless it brings a
`:framing`, the framer's buffer; only `close` drops both.
-/

set_option autoImplicit false

namespace CircuitsUart.Server

variable {β : Type}

/-- The received bytes the state holds. -/
def held (s : State β) : List β := s.queuedMessages.flatMap Message.bytes ++ s.framer.buffered

/-- Those `open` leaves: the queue stays as it is, and the framer unless one is given. -/
def kept (opts : List UartOption) (s : State β) : List β :=
  s.queuedMessages.flatMap Message.bytes ++
    if keywordGet (fun o => o.framing?.map some) opts none = none then s.framer.buffered else []

/-- The received bytes the application gets with a label. -/
def Label.bytes (l : Label β) : List β := l.delivered.flatMap Message.bytes

def deliveredBytes (h : List (Label β)) : List β := h.flatMap Label.bytes

theorem deliveredBytes_eq (h : List (Label β)) :
    deliveredBytes h = (delivered h).flatMap Message.bytes := by
  rw [deliveredBytes, delivered, List.flatMap_assoc]
  rfl

theorem delivered_reportMessages_subset (s : State β) (ms : List (Message β)) :
    delivered (reportMessages s (ms.map .message)) ⊆ ms := by
  cases hc : s.controllingProcess with
  | none => simp [reportMessages, hc]
  | some dest =>
    rw [delivered_reportMessages_eq (by simp [hc])]
    exact fun m hm => hm

/-- The options leave the queue, and the frame unless there is a `:framing`. -/
theorem held_of_options {s s' : State β} {opts : List UartOption} (taken : OptionsTaken opts s s') :
    held s' = kept opts s := by
  rw [held, kept, taken.queue, taken.buffered]

theorem kept_subset (opts : List UartOption) (s : State β) : kept opts s ⊆ held s := by
  intro b hb
  rw [kept, List.mem_append] at hb
  rw [held, List.mem_append]
  refine hb.imp id fun h => ?_
  split at h
  · exact h
  · exact absurd h (by simp)

theorem held_resumeClosing (s : State β) (timers : Timers) (pid : Pid) (r : Response β) :
    held (resumeClosing s timers pid r).state = [] := by
  simp only [resumeClosing, replyWith, held, handleFramingTimer_queuedMessages,
    handleFramingTimer_framer, Framer.buffered_flush]
  rfl

variable [Octet β]

/-- Received bytes are in the framer or in its messages. -/
theorem held_afterData {s : State β} {data : List β} {rc : Rc} {ms : List (Message β)}
    {framer : Framer β} (timers : Timers) (h : s.framer.removeFraming data = some (rc, ms, framer)) :
    ms.flatMap Message.bytes ++ held (afterData s timers framer rc).state ⊆ held s ++ data := by
  have bytes := Framer.removeFraming_bytes h
  intro b hb
  simp only [held, afterData, handleFramingTimer_queuedMessages, handleFramingTimer_framer,
    List.mem_append, List.mem_flatMap] at hb ⊢
  rcases hb with hb | hb | hb
  · rcases bytes b (.inr hb) with h | h
    · exact .inl (.inr h)
    · exact .inr h
  · exact .inl (.inl hb)
  · rcases bytes b (.inl hb) with h | h
    · exact .inl (.inr h)
    · exact .inr h

omit [Octet β] in
/-- A frame timeout hands on the frame it cuts short, or queues it. -/
theorem bytes_handleTimedOut (s : State β) (timers : Timers) (tref : Tref) :
    deliveredBytes (handleTimedOut s timers tref).out ++ held (handleTimedOut s timers tref).state ⊆
      held s := by
  have out : delivered (handleTimedOut s timers tref).out ++
      (handleTimedOut s timers tref).state.queuedMessages ⊆
        s.queuedMessages ++ s.framer.frameTimeout.1 := by
    simp only [handleTimedOut, delivered_cons, Label.delivered, notifyTimedoutMessages]
    split
    · intro m hm
      rcases List.mem_append.mp hm with hm | hm
      · exact List.mem_append_right _ (delivered_reportMessages_subset _ _ hm)
      · exact List.mem_append_left _ hm
    · exact fun m hm => hm
    · exact fun m hm => List.mem_append_left _ hm
  have framer : (handleTimedOut s timers tref).state.framer = s.framer.frameTimeout.2 := by
    rw [handleTimedOut, notifyTimedoutMessages_state]
  intro b hb
  rw [held, framer, Framer.buffered_frameTimeout, List.append_nil, deliveredBytes_eq,
    ← List.flatMap_append] at hb
  obtain ⟨m, hm, hb⟩ := List.mem_flatMap.mp hb
  rw [held, List.mem_append]
  rcases List.mem_append.mp (out hm) with hm | hm
  · exact .inl (List.mem_flatMap.mpr ⟨m, hm, hb⟩)
  · exact .inr (Framer.bytes_frameTimeout _ m hm b hb)

/-- **No byte is made up.** What a turn delivers and what it leaves held was held or is taken. -/
theorem Turn.bytes {s : State β} {timers : Timers} {taken : Taken β} {ran : Ran β}
    (h : Turn s timers taken ran) (hco : ∀ p r, taken = .response p r → Coherent s p) :
    deliveredBytes ran.out ++ held ran.state ⊆ held s ++ taken.bytes := by
  have none : ∀ {out : List (Label β)} {l : List β}, delivered out = [] → l ⊆ held s →
      deliveredBytes out ++ l ⊆ held s ++ taken.bytes := fun {out l} hout hl => by
    rw [deliveredBytes_eq, hout]
    exact fun b hb => List.mem_append_left _ (hl (by simpa using hb))
  cases h with
  | ask | control => exact none rfl fun b hb => hb
  | readQueued queue =>
    intro b hb
    apply List.mem_append_left
    rw [held, queue]
    simpa [deliveredBytes, Label.bytes, Label.delivered, replyWith, held] using hb
  | configure =>
    refine none ?_ ?_
    · simp only [handleConfigure, callPort, reframed]
      split <;> rfl
    · rw [held_of_options (handleConfigure_options _ _ _ _)]
      exact kept_subset _ s
  | opened =>
    refine none ?_ ?_
    · simp only [resumeOpening, replyWith, reframed]
      split <;> rfl
    · rw [held_of_options (resumeOpening_options _ _ _ _ _ _)]
      exact kept_subset _ s
  | @flush _ direction =>
    refine none ?_ ?_
    · simp only [handleFlush, callPort]
      split <;> rfl
    · intro b hb
      simp only [handleFlush, callPort, held, Framer.buffered_flush, List.mem_append] at hb ⊢
      refine hb.imp id fun h => ?_
      split at h
      · exact h
      · exact absurd h (by simp)
  | @notified data rc ms framer framed =>
    intro b hb
    refine held_afterData timers framed ?_
    rw [deliveredBytes_eq] at hb
    rcases List.mem_append.mp hb with hb | hb
    · obtain ⟨m, hm, hb⟩ := List.mem_flatMap.mp hb
      have hm' : m ∈ ms := delivered_reportMessages_subset _ _ hm
      exact List.mem_append_left _ (List.mem_flatMap.mpr ⟨m, hm', hb⟩)
    · exact List.mem_append_right _ hb
  | failed => exact none (delivered_reportMessages_error _ _) fun b hb => hb
  | @timedOut tref =>
    intro b hb
    exact List.mem_append_left _ (bytes_handleTimedOut s timers tref hb)
  | closed =>
    refine none rfl ?_
    rw [held_resumeClosing]
    exact List.nil_subset _
  | @answered _ _ reply _ not_message =>
    refine none ?_ fun b hb => hb
    cases reply with
    | message m => exact absurd rfl (not_message m)
    | _ => rfl
  | wrote cont =>
    have same := hco _ _ rfl
    simp only [Coherent, cont] at same
    rw [same]
    exact none rfl fun b hb => hb
  | @readData p timeout callTime data rc m rest framer cont ne framed =>
    intro b hb
    refine held_afterData timers framed ?_
    rw [replyWith, held, deliveredBytes_eq] at hb
    simp only [delivered_append, delivered_cons, delivered_nil, Label.delivered, afterData,
      handleFramingTimer_framer, List.append_nil, List.nil_append, List.flatMap_cons,
      List.flatMap_nil, List.mem_append] at hb
    simp only [held, afterData, handleFramingTimer_framer, List.flatMap_cons, List.mem_append]
    tauto
  | @readMore p timeout retryTimeout callTime clock data rc framer cont ne framed =>
    have waiting := hco _ _ rfl
    simp only [Coherent, cont] at waiting
    have queue : (afterData s timers framer rc).state.queuedMessages = [] := by
      simpa [afterData] using waiting
    intro b hb
    refine held_afterData timers framed ?_
    unfold handleRead at hb
    rw [queue] at hb
    exact hb

/-- **What is left of the old session** when the response to an `open` or a `close` is
taken. -/
theorem Turn.cuts {s : State β} {timers : Timers} {p : Pending β} {r : Response β} {ran : Ran β}
    (h : Turn s timers (.response p r) ran) (cut : (∃ name opts, p.cont = .opening name opts) ∨
      p.cont = .closing) :
    ran.pending = none ∧ ((∃ name opts, p.cont = .opening name opts ∧
      held ran.state = kept opts s) ∨ held ran.state = []) := by
  have noRead : ∀ timeout callTime, p.cont ≠ .reading timeout callTime := fun timeout callTime hc => by
    rcases cut with ⟨name, opts, h⟩ | h <;> simp [h] at hc
  cases h with
  | opened cont =>
    exact ⟨rfl, .inl ⟨_, _, cont, held_of_options (resumeOpening_options _ _ _ _ _ _)⟩⟩
  | closed => exact ⟨rfl, .inr (held_resumeClosing _ _ _ _)⟩
  | answered cont =>
    rcases cut with ⟨name, opts, h⟩ | h <;> simp [h] at cont
  | wrote cont =>
    rcases cut with ⟨name, opts, h⟩ | h <;> simp [h] at cont
  | readData cont => exact absurd cont (noRead _ _)
  | readMore cont => exact absurd cont (noRead _ _)

end CircuitsUart.Server
