import CircuitsUart.Server.Timers

/-!
# What goes in and what comes out

The server as a pipe. Bytes are **fed** to the framer, the framer **frames** messages, and
messages are **delivered**, by a message to the controlling process or by the reply to a
read. Between framing and delivery there is one queue.

Two facts about a turn carry every statement about delivery. `Turn.feeds`: a turn that
leaves the framer alone feeds it at most once. `Turn.accounts`: what a turn delivers is
taken from the front of the queue with the newly framed messages behind it, as long as the
turn does not send past a queued message.

The mailbox is a second pipe in front of the first. What has arrived there and has not been taken
is `mailData`, and a selective `receive` may take a response out of the middle of it; so the order
of the stream is the order in which bytes are taken, and whether that is the order in which they
arrived is a question about the port program (`System.Order`).
-/

set_option autoImplicit false

namespace CircuitsUart.Server

variable {β : Type}

/-- The bytes a label fed to the framer. -/
def Label.fed : Label β → List β
  | .received data _ _ _ => data
  | _ => []

/-- The messages the framer reported with a label. -/
def Label.framed : Label β → List (Message β)
  | .received _ _ messages _ => messages
  | .timedOut _ framer _ => framer.frameTimeout.1
  | _ => []

/-- The message sent to the controlling process with a label. -/
def Label.sentMessage : Label β → List (Message β)
  | .sent _ _ (.message m) => [m]
  | _ => []

/-- The message a read was replied with a label. -/
def Label.readMessage : Label β → List (Message β)
  | .replied _ (.message m) => [m]
  | _ => []

def fed (h : List (Label β)) : List β := h.flatMap Label.fed

def framed (h : List (Label β)) : List (Message β) := h.flatMap Label.framed

def delivered (h : List (Label β)) : List (Message β) := h.flatMap Label.delivered

def sentMessages (h : List (Label β)) : List (Message β) := h.flatMap Label.sentMessage

def readMessages (h : List (Label β)) : List (Message β) := h.flatMap Label.readMessage

@[simp] theorem fed_nil : fed ([] : List (Label β)) = [] := rfl
@[simp] theorem framed_nil : framed ([] : List (Label β)) = [] := rfl
@[simp] theorem delivered_nil : delivered ([] : List (Label β)) = [] := rfl
@[simp] theorem sentMessages_nil : sentMessages ([] : List (Label β)) = [] := rfl
@[simp] theorem readMessages_nil : readMessages ([] : List (Label β)) = [] := rfl

@[simp] theorem fed_append (a b : List (Label β)) : fed (a ++ b) = fed a ++ fed b := by
  simp [fed]

@[simp] theorem framed_append (a b : List (Label β)) : framed (a ++ b) = framed a ++ framed b := by
  simp [framed]

@[simp] theorem delivered_append (a b : List (Label β)) :
    delivered (a ++ b) = delivered a ++ delivered b := by
  simp [delivered]

@[simp] theorem sentMessages_append (a b : List (Label β)) :
    sentMessages (a ++ b) = sentMessages a ++ sentMessages b := by
  simp [sentMessages]

@[simp] theorem readMessages_append (a b : List (Label β)) :
    readMessages (a ++ b) = readMessages a ++ readMessages b := by
  simp [readMessages]

@[simp] theorem fed_cons (l : Label β) (h : List (Label β)) : fed (l :: h) = l.fed ++ fed h := rfl

@[simp] theorem framed_cons (l : Label β) (h : List (Label β)) :
    framed (l :: h) = l.framed ++ framed h := rfl

@[simp] theorem delivered_cons (l : Label β) (h : List (Label β)) :
    delivered (l :: h) = l.delivered ++ delivered h := rfl

@[simp] theorem sentMessages_cons (l : Label β) (h : List (Label β)) :
    sentMessages (l :: h) = l.sentMessage ++ sentMessages h := rfl

@[simp] theorem readMessages_cons (l : Label β) (h : List (Label β)) :
    readMessages (l :: h) = l.readMessage ++ readMessages h := rfl

/-! ### The labels of reports -/

/-- What is nothing of a message sent is nothing of reports. -/
theorem flatMap_reportMessages {γ : Type} {f : Label β → List γ} (s : State β)
    (notices : List (Notice β)) (none : ∀ dest id notice, f (.sent dest id notice) = []) :
    (reportMessages s notices).flatMap f = [] := by
  refine List.flatMap_eq_nil_iff.mpr fun l hl => ?_
  obtain ⟨dest, id, notice, -, rfl⟩ := mem_reportMessages hl
  exact none dest id notice

theorem fed_reportMessages (s : State β) (notices : List (Notice β)) :
    fed (reportMessages s notices) = [] :=
  flatMap_reportMessages s notices fun _ _ _ => rfl

theorem framed_reportMessages (s : State β) (notices : List (Notice β)) :
    framed (reportMessages s notices) = [] :=
  flatMap_reportMessages s notices fun _ _ _ => rfl

theorem readMessages_reportMessages (s : State β) (notices : List (Notice β)) :
    readMessages (reportMessages s notices) = [] :=
  flatMap_reportMessages s notices fun _ _ _ => rfl

theorem delivered_reportMessages_error (s : State β) (reason : Reason) :
    delivered (reportMessages s [.error reason]) = [] := by
  unfold reportMessages
  split <;> rfl

/-- With a controlling process, every message is sent. -/
theorem delivered_reportMessages_eq {s : State β} (h : s.controllingProcess ≠ none)
    (ms : List (Message β)) : delivered (reportMessages s (ms.map .message)) = ms := by
  cases hc : s.controllingProcess with
  | none => exact absurd hc h
  | some dest => simp [reportMessages, hc, delivered, Label.delivered, List.flatMap_map]

/-- What is not the reply to a read was sent. -/
theorem delivered_eq_sentMessages {h : List (Label β)} (hr : readMessages h = []) :
    delivered h = sentMessages h := by
  induction h with
  | nil => rfl
  | cons l h ih =>
    rw [readMessages_cons, List.append_eq_nil_iff] at hr
    rw [delivered_cons, sentMessages_cons, ih hr.2]
    congr 1
    cases l with
    | sent dest id notice => cases notice <;> rfl
    | replied pid reply =>
      cases reply with
      | message m => exact absurd hr.1 (by simp [Label.readMessage])
      | _ => rfl
    | _ => rfl

/-- What was not sent was the reply to a read. -/
theorem delivered_eq_readMessages {h : List (Label β)} (hs : sentMessages h = []) :
    delivered h = readMessages h := by
  induction h with
  | nil => rfl
  | cons l h ih =>
    rw [sentMessages_cons, List.append_eq_nil_iff] at hs
    rw [delivered_cons, readMessages_cons, ih hs.2]
    congr 1
    cases l with
    | sent dest id notice =>
      cases notice with
      | message m => exact absurd hs.1 (by simp [Label.sentMessage])
      | error r => rfl
    | replied pid reply => cases reply <;> rfl
    | _ => rfl

/-! ## The mailbox -/

/-- The received bytes in a message. -/
def Msg.bytes : Msg β → List β
  | .notif n => n.bytes
  | .resp r => r.bytes
  | _ => []

/-- The received bytes in the mailbox. -/
def mailData (mailbox : List (Msg β)) : List β := mailbox.flatMap Msg.bytes

/-- The received bytes in a message that reached the mailbox. -/
def Label.arrivedData : Label β → List β
  | .arrived m => m.bytes
  | _ => []

def arrivedData (h : List (Label β)) : List β := h.flatMap Label.arrivedData

/-- The responses in the mailbox. -/
def responses : List (Msg β) → List (Response β)
  | [] => []
  | .resp r :: rest => r :: responses rest
  | _ :: rest => responses rest

theorem responses_append (a b : List (Msg β)) : responses (a ++ b) = responses a ++ responses b := by
  induction a with
  | nil => rfl
  | cons m a ih => cases m <;> simp [responses, ih]

theorem responses_eq_nil {mailbox : List (Msg β)} (h : ∀ r, .resp r ∉ mailbox) :
    responses mailbox = [] := by
  induction mailbox with
  | nil => rfl
  | cons m rest ih =>
    have ih' := ih fun r hr => h r (List.mem_cons_of_mem _ hr)
    cases m with
    | resp r => exact absurd List.mem_cons_self (h r)
    | _ => exact ih'

@[simp] theorem mailData_append (a b : List (Msg β)) : mailData (a ++ b) = mailData a ++ mailData b := by
  simp [mailData]

@[simp] theorem mailData_cons (m : Msg β) (rest : List (Msg β)) :
    mailData (m :: rest) = m.bytes ++ mailData rest := rfl

/-- A message without received bytes makes no difference. -/
theorem mailData_insert (before after : List (Msg β)) {m : Msg β} (h : m.bytes = []) :
    mailData ((before ++ [m]) ++ after) = mailData (before ++ after) := by
  simp [mailData, h]

@[simp] theorem arrivedData_append (a b : List (Label β)) :
    arrivedData (a ++ b) = arrivedData a ++ arrivedData b := by
  simp [arrivedData]

/-- The received bytes a turn takes. -/
def Taken.bytes : Taken β → List β
  | .message m => m.bytes
  | .response _ r => r.bytes

/-! ## A turn's ledger -/

/-- The turns that replace the framer, flush it or take its buffer. -/
def touchesFramer : Taken β → Prop
  | .message (.call _ (.configure opts)) =>
    keywordGet (fun o => o.framing?.map some) opts none ≠ none
  | .message (.call _ (.flush direction)) => direction ≠ .transmit
  | .message (.rxFramingTimedOut _) => True
  | .message _ => False
  | .response p _ =>
    (∃ name opts, p.cont = .opening name opts ∧
      keywordGet (fun o => o.framing?.map some) opts none ≠ none) ∨ p.cont = .closing

variable [Octet β]

omit [Octet β] in
theorem flush_transmit (f : Framer β) : f.flush .transmit = f := by
  cases f <;> rfl

/-- **A turn feeds the framer at most once.** -/
theorem Turn.feeds {s : State β} {timers : Timers} {taken : Taken β} {ran : Ran β}
    (h : Turn s timers taken ran) (hco : ∀ p r, taken = .response p r → Coherent s p)
    (ht : ¬ touchesFramer taken) :
    (fed ran.out = [] ∧ framed ran.out = [] ∧ ran.state.framer = s.framer) ∨
      ∃ rc, s.framer.removeFraming (fed ran.out) = some (rc, framed ran.out, ran.state.framer) := by
  cases h with
  | ask | readQueued | control | answered => exact .inl ⟨rfl, rfl, rfl⟩
  | @configure _ opts =>
    have hnone : keywordGet (fun o => o.framing?.map some) opts none = none := by
      by_contra hne
      exact ht hne
    refine .inl ⟨?_, ?_, ?_⟩
    · simp [handleConfigure, callPort, reframed, hnone, Label.fed]
    · simp [handleConfigure, callPort, reframed, hnone, Label.framed]
    · exact (handleConfigure_options s timers _ opts).framer hnone
  | @flush _ direction =>
    obtain rfl : direction = .transmit := by
      by_contra hne
      exact ht hne
    exact .inl ⟨rfl, rfl, flush_transmit _⟩
  | @notified data rc ms framer framed =>
    refine .inr ⟨rc, ?_⟩
    simp only [fed_cons, framed_cons, Label.fed, Label.framed, fed_reportMessages,
      framed_reportMessages, List.append_nil, afterData, handleFramingTimer_framer]
    exact framed
  | failed =>
    exact .inl ⟨fed_reportMessages _ _, framed_reportMessages _ _, rfl⟩
  | timedOut => exact absurd trivial ht
  | @opened p name opts r cont =>
    have hnone : keywordGet (fun o => o.framing?.map some) opts none = none := by
      by_contra hne
      exact ht (.inl ⟨name, opts, cont, hne⟩)
    refine .inl ⟨?_, ?_, ?_⟩
    · simp [resumeOpening, replyWith, reframed, hnone, Label.fed]
    · simp [resumeOpening, replyWith, reframed, hnone, Label.framed]
    · exact (resumeOpening_options s timers _ name opts r).framer hnone
  | closed cont => exact absurd (.inr cont) ht
  | wrote cont =>
    have hco' := hco _ _ rfl
    simp only [Coherent, cont] at hco'
    subst hco'
    exact .inl ⟨rfl, rfl, rfl⟩
  | @readData p timeout callTime data rc m rest framer cont ne framed =>
    refine .inr ⟨rc, ?_⟩
    simp only [replyWith, fed_append, framed_append, fed_cons, framed_cons, fed_nil, framed_nil,
      Label.fed, Label.framed, List.append_nil, afterData, handleFramingTimer_framer]
    exact framed
  | @readMore p timeout retryTimeout callTime clock data rc framer cont ne framed =>
    refine .inr ⟨rc, ?_⟩
    unfold handleRead
    split
    · simp only [replyWith, fed_append, framed_append, fed_cons, framed_cons, fed_nil, framed_nil,
        Label.fed, Label.framed, List.append_nil, afterData, handleFramingTimer_framer]
      exact framed
    · simp only [callPort, fed_append, framed_append, fed_cons, framed_cons, fed_nil, framed_nil,
        Label.fed, Label.framed, List.append_nil, afterData, handleFramingTimer_framer]
      exact framed

/-- **A turn feeds the framer the bytes it takes**, if responses with data are for reads. -/
theorem Turn.fed_eq {s : State β} {timers : Timers} {taken : Taken β} {ran : Ran β}
    (h : Turn s timers taken ran)
    (hr : ∀ p r, taken = .response p r → r.bytes ≠ [] →
      ∃ timeout callTime, p.cont = .reading timeout callTime) : fed ran.out = taken.bytes := by
  have hnil : ∀ (p : Pending β) (r : Response β), taken = .response p r →
      (∀ timeout callTime, p.cont ≠ .reading timeout callTime) → r.bytes = [] := by
    intro p r heq hne
    by_contra hb
    obtain ⟨timeout, callTime, hc⟩ := hr p r heq hb
    exact hne timeout callTime hc
  cases h with
  | ask | readQueued | control => rfl
  | configure =>
    simp only [handleConfigure, callPort, reframed]
    split <;> rfl
  | flush =>
    simp only [handleFlush, callPort]
    split <;> rfl
  | notified =>
    simp only [fed_cons, Label.fed, fed_reportMessages, List.append_nil]
    rfl
  | failed => exact fed_reportMessages _ _
  | timedOut =>
    simp only [handleTimedOut, fed_cons, Label.fed, List.nil_append, notifyTimedoutMessages]
    split
    · exact fed_reportMessages _ _
    · rfl
    · rfl
  | opened cont =>
    simp only [Taken.bytes, hnil _ _ rfl (by simp [cont]), resumeOpening, replyWith, reframed]
    split <;> rfl
  | closed cont =>
    simp only [Taken.bytes, hnil _ _ rfl (by simp [cont])]
    rfl
  | answered cont _ =>
    rcases cont with hc | hc | ⟨_, _, _, hb⟩
    · simp only [Taken.bytes, hnil _ _ rfl (by simp [hc])]
      rfl
    · simp only [Taken.bytes, hnil _ _ rfl (by simp [hc])]
      rfl
    · simp only [Taken.bytes, hb]
      rfl
  | wrote cont =>
    simp only [Taken.bytes, hnil _ _ rfl (by simp [cont])]
    rfl
  | readData => simp [replyWith, Label.fed, Taken.bytes, Response.bytes]
  | readMore =>
    unfold handleRead
    split <;> simp [replyWith, callPort, Label.fed, Taken.bytes, Response.bytes]

omit [Octet β] in
theorem arrivedData_reportMessages (s : State β) (notices : List (Notice β)) :
    arrivedData (reportMessages s notices) = [] :=
  flatMap_reportMessages s notices fun _ _ _ => rfl

/-- Nothing reaches the mailbox by a turn. -/
theorem Turn.arrivedData_eq {s : State β} {timers : Timers} {taken : Taken β} {ran : Ran β}
    (h : Turn s timers taken ran) : arrivedData ran.out = [] := by
  cases h with
  | configure | opened =>
    simp only [handleConfigure, resumeOpening, callPort, replyWith, reframed]
    split <;> rfl
  | flush =>
    simp only [handleFlush, callPort]
    split <;> rfl
  | notified => exact arrivedData_reportMessages _ _
  | failed => exact arrivedData_reportMessages _ _
  | timedOut =>
    simp only [handleTimedOut, notifyTimedoutMessages]
    split
    · exact arrivedData_reportMessages _ _
    · rfl
    · rfl
  | readMore =>
    unfold handleRead
    split <;> rfl
  | _ => rfl

/-- The controlling process stays set. -/
theorem Turn.dest {s : State β} {timers : Timers} {taken : Taken β} {ran : Ran β}
    (h : Turn s timers taken ran) (hd : s.controllingProcess ≠ none) :
    ran.state.controllingProcess ≠ none := by
  have after : ∀ framer rc, (afterData s timers framer rc).state.controllingProcess ≠ none :=
    fun framer rc => by simpa [afterData] using hd
  cases h with
  | configure =>
    rw [handleConfigure_controllingProcess]
    exact hd
  | control => simp [replyWith]
  | notified | readData => exact after _ _
  | timedOut =>
    simp only [handleTimedOut, notifyTimedoutMessages_state]
    exact hd
  | opened =>
    rw [resumeOpening_controllingProcess]
    exact Option.some_ne_none _
  | closed => simpa [resumeClosing, replyWith] using hd
  | readMore =>
    unfold handleRead
    split <;> exact after _ _
  | _ => exact hd

/-- The turns that would send a message past a queued one. -/
def overtakes (s : State β) : Taken β → Prop
  | .message (.notif (.data data)) =>
    s.queuedMessages ≠ [] ∧
      ∀ rc framer, s.framer.removeFraming data ≠ some (rc, [], framer)
  | .message (.rxFramingTimedOut _) =>
    s.queuedMessages ≠ [] ∧ s.isActive = true ∧ s.framer.frameTimeout.1 ≠ []
  | _ => False

/-- **A turn delivers from the front.** -/
theorem Turn.accounts {s : State β} {timers : Timers} {taken : Taken β} {ran : Ran β}
    (h : Turn s timers taken ran) (hco : ∀ p r, taken = .response p r → Coherent s p)
    (hclose : ∀ p r, taken = .response p r → p.cont ≠ .closing)
    (hdest : s.controllingProcess ≠ none) (ho : ¬ overtakes s taken) :
    delivered ran.out ++ ran.state.queuedMessages = s.queuedMessages ++ framed ran.out := by
  cases h with
  | ask | control | flush =>
    simp only [callPort, replyWith, handleFlush]
    try split
    all_goals simp [Label.delivered, Label.framed]
  | readQueued queue => simp [replyWith, Label.delivered, Label.framed, queue]
  | configure =>
    rw [(handleConfigure_options _ _ _ _).queue]
    simp only [handleConfigure, callPort, reframed]
    split <;> simp [Label.delivered, Label.framed]
  | opened =>
    rw [(resumeOpening_options _ _ _ _ _ _).queue]
    simp only [resumeOpening, replyWith, reframed]
    split <;> simp [Label.delivered, Label.framed]
  | @notified data rc ms framer hframed =>
    have hdest' : (afterData s timers framer rc).state.controllingProcess ≠ none := by
      simpa [afterData] using hdest
    have hqueue : (afterData s timers framer rc).state.queuedMessages = s.queuedMessages := by
      simp [afterData]
    simp only [delivered_cons, framed_cons, Label.delivered, Label.framed, framed_reportMessages,
      delivered_reportMessages_eq hdest', hqueue, List.nil_append, List.append_nil]
    -- past a queued message, nothing may have been framed
    by_cases hq : s.queuedMessages = []
    · simp [hq]
    · cases ms with
      | nil => simp
      | cons m ms =>
        refine absurd ⟨hq, fun rc' framer' hnil => ?_⟩ ho
        rw [hframed] at hnil
        exact absurd hnil (by simp)
  | failed => simp [delivered_reportMessages_error, framed_reportMessages]
  | timedOut =>
    simp only [handleTimedOut, delivered_cons, framed_cons, Label.delivered, Label.framed,
      notifyTimedoutMessages_state, List.nil_append]
    cases ha : s.isActive with
    | false => simp [notifyTimedoutMessages]
    | true =>
      cases hd : s.controllingProcess with
      | none => exact absurd hd hdest
      | some dest =>
        simp only [notifyTimedoutMessages, framed_reportMessages, List.append_nil, ite_true]
        rw [delivered_reportMessages_eq (by simp)]
        by_cases hq : s.queuedMessages = []
        · simp [hq]
        · have hnil : s.framer.frameTimeout.1 = [] := by
            by_contra hne
            exact ho ⟨hq, ha, hne⟩
          simp [hnil]
  | closed cont => exact absurd cont (hclose _ _ rfl)
  | @answered p r reply cont not_message =>
    cases reply with
    | message m => exact absurd rfl (not_message m)
    | _ => simp [replyWith, Label.delivered, Label.framed]
  | wrote cont => simp [replyWith, Label.delivered, Label.framed]
  | readData cont ne framed =>
    have hco' := hco _ _ rfl
    simp only [Coherent, cont] at hco'
    simp [replyWith, Label.delivered, Label.framed, hco']
  | readMore cont ne framed =>
    have hco' := hco _ _ rfl
    simp only [Coherent, cont] at hco'
    unfold handleRead
    simp only [afterData, handleFramingTimer_queuedMessages, hco']
    simp [callPort, Label.delivered, Label.framed]

end CircuitsUart.Server
