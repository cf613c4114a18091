import CircuitsUart.Server.Ledger

/-!
# Active and passive delivery agree

The same bytes, once as notifications to a server in active mode and once as replies to the
reads of a server in passive mode, each cut in its own way and mixed in its own way with
calls that have nothing to do with reception: the messages sent in the one are the messages
read in the other, with those still queued behind them.

Both are compared with one `remove_framing/2` on the whole stream (`Receiving`, the
invariant of either run), and the two runs only meet at the end. So there is one invariant,
with the mode as a parameter, and one run lemma. A simulation between the two servers would
have to say which state of the one goes with which state of the other, and there is no such
thing: one may be many reads ahead.

The mode decides little. In active mode nothing is read, in passive mode nothing is sent
(`Turn.oneWay`), and that is all the proof uses of it.
-/

set_option autoImplicit false

namespace CircuitsUart.Server

open Lib

variable {β : Type}

/-- The calls that neither read nor change how data is received. -/
def Call.keepsReception : Call → Bool
  | .configuration => true
  | .write _ _ => true
  | .drain => true
  | .signals => true
  | .setDtr _ => true
  | .setRts _ => true
  | .setBreak _ => true
  | .controllingProcess _ => true
  | _ => false

/-- The messages a server gets: notifications in active mode, reads in passive mode. -/
def Expected (active : Bool) : Msg β → Prop
  | .call _ (.read _) => active = false
  | .call _ call => call.keepsReception = true
  | .notif _ => active = true
  | .resp _ => True
  | .rxFramingTimedOut _ => False

/-- How the C program responds: once, to a request it was sent, and with data only to a
read. -/
def PortAnswers (σ : Server β) (r : Response β) : Prop :=
  responses σ.mailbox = [] ∧ ∃ p, σ.pending = some p ∧
    (r.bytes ≠ [] → ∃ timeout callTime, p.cont = .reading timeout callTime)

/-- The steps of a run in one mode. -/
def Receives (active : Bool) (σ : Server β) : Event β → Prop
  | .arrive (.resp r) => PortAnswers σ r
  | .arrive m => Expected active m
  | _ => True

variable [Octet β]

/-- A server whose port has just been opened, in one mode and without a framing timeout. -/
structure Opened (active : Bool) (framer : Framer β) (σ : Server β) : Prop where
  idle : σ.pending = none
  mailbox : σ.mailbox = []
  live : σ.timers.live = []
  framer : σ.state.framer = framer
  timeout : σ.state.rxFramingTimeout = 0
  queue : σ.state.queuedMessages = []
  dest : σ.state.controllingProcess ≠ none
  active : σ.state.isActive = active

/-- What holds throughout a run in one mode, from a framer `f₀`. -/
structure Receiving (active : Bool) (f₀ : Framer β) (h : List (Label β)) (σ : Server β) : Prop where
  coherent : PendingOk σ
  usable : σ.state.framer.Usable
  timeout : σ.state.rxFramingTimeout = 0
  live : σ.timers.live = []
  dest : σ.state.controllingProcess ≠ none
  expected : ∀ m ∈ σ.mailbox, Expected active m
  waits : ∀ p, σ.pending = some p → (∀ name opts, p.cont ≠ .opening name opts) ∧
    p.cont ≠ .closing ∧ ((∃ timeout callTime, p.cont = .reading timeout callTime) → active = false)
  answer : ∀ r ∈ responses σ.mailbox, responses σ.mailbox = [r] ∧ ∃ p, σ.pending = some p ∧
    (r.bytes ≠ [] → ∃ timeout callTime, p.cont = .reading timeout callTime)
  stream : arrivedData h = fed h ++ mailData σ.mailbox
  framing : ∃ rc, f₀.removeFraming (fed h) = some (rc, framed h, σ.state.framer)
  account : delivered h ++ σ.state.queuedMessages = framed h
  sends : active = true → readMessages h = [] ∧ σ.state.queuedMessages = []
  reads : active = false → sentMessages h = []

/-- What a turn may take in a run in one mode. -/
structure MayTake (active : Bool) (taken : Taken β) : Prop where
  message : ∀ m, taken = .message m → Expected active m
  response : ∀ p r, taken = .response p r → (∀ name opts, p.cont ≠ .opening name opts) ∧
    p.cont ≠ .closing ∧ ((∃ timeout callTime, p.cont = .reading timeout callTime) → active = false)

omit [Octet β] in
theorem MayTake.not_touches {active : Bool} {taken : Taken β} (h : MayTake active taken) :
    ¬ touchesFramer taken := by
  intro ht
  cases taken with
  | message m =>
    have hm := h.message m rfl
    cases m with
    | call pid call => cases call <;> simp_all [touchesFramer, Expected, Call.keepsReception]
    | notif n => exact ht
    | resp r => exact ht
    | rxFramingTimedOut t => exact hm
  | response p r =>
    obtain ⟨hopen, hclose, -⟩ := h.response p r rfl
    rcases ht with ⟨name, opts, hc, -⟩ | hc
    · exact hopen name opts hc
    · exact hclose hc

omit [Octet β] in
/-- `handle_framing_timer/2` without a timeout starts nothing. -/
theorem handleFramingTimer_live {s : State β} {timers : Timers} (ht : s.rxFramingTimeout = 0)
    (hl : timers.live = []) (rc : Rc) : (handleFramingTimer s timers rc).timers.live = [] := by
  unfold handleFramingTimer
  cases rc with
  | ok => cases s.rxFramingTref <;> simp [Timers.cancel, hl]
  | inFrame => simp [ht, hl]

/-- What a turn leaves as it is, whichever mode the run is in. -/
theorem Turn.keeps {active : Bool} {s : State β} {timers : Timers} {taken : Taken β} {ran : Ran β}
    (h : Turn s timers taken ran) (hm : MayTake active taken) (ht : s.rxFramingTimeout = 0)
    (hl : timers.live = []) : ran.state.rxFramingTimeout = 0 ∧ ran.timers.live = [] := by
  have hafter : ∀ framer rc, (afterData s timers framer rc).state.rxFramingTimeout = 0 ∧
      (afterData s timers framer rc).timers.live = [] := by
    intro framer rc
    refine ⟨by simpa [afterData] using ht, ?_⟩
    exact handleFramingTimer_live (s := { s with framer := framer }) ht hl rc
  cases h with
  | configure => exact absurd (hm.message _ rfl) (by simp [Expected, Call.keepsReception])
  | timedOut => exact absurd (hm.message _ rfl) (by simp [Expected])
  | @opened p name opts r cont => exact absurd cont ((hm.response p r rfl).1 name opts)
  | closed cont => exact absurd cont (hm.response _ _ rfl).2.1
  | notified | readData => exact hafter _ _
  | readMore =>
    unfold handleRead
    split
    · exact hafter _ _
    · exact hafter _ _
  | _ => exact ⟨ht, hl⟩

/-- Who may be waited for after a turn. -/
theorem Turn.waits {active : Bool} {s : State β} {timers : Timers} {taken : Taken β} {ran : Ran β}
    (h : Turn s timers taken ran) (hm : MayTake active taken) :
    ∀ p, ran.pending = some p → (∀ name opts, p.cont ≠ .opening name opts) ∧
      p.cont ≠ .closing ∧ ((∃ timeout callTime, p.cont = .reading timeout callTime) →
        active = false) := by
  intro p hp
  cases h with
  | ask asks =>
    have he := hm.message _ rfl
    obtain rfl := Option.some.inj hp
    cases asks <;> simp_all [Expected, Call.keepsReception]
  | configure => exact absurd (hm.message _ rfl) (by simp [Expected, Call.keepsReception])
  | flush => exact absurd (hm.message _ rfl) (by simp [Expected, Call.keepsReception])
  | readMore cont ne framed =>
    have hfalse := (hm.response _ _ rfl).2.2 ⟨_, _, cont⟩
    unfold handleRead at hp
    split at hp
    · exact absurd hp (by simp [replyWith])
    · obtain rfl := Option.some.inj hp
      exact ⟨by simp, by simp, fun _ => hfalse⟩
  | _ => exact absurd hp (by simp [replyWith, resumeOpening, resumeClosing, handleTimedOut])

/-- In active mode nothing is read, in passive mode nothing is sent. -/
theorem Turn.oneWay {active : Bool} {s : State β} {timers : Timers} {taken : Taken β} {ran : Ran β}
    (h : Turn s timers taken ran) (hm : MayTake active taken) :
    (active = true → readMessages ran.out = [] ∧ ran.state.queuedMessages = s.queuedMessages) ∧
      (active = false → sentMessages ran.out = []) := by
  cases h with
  | readQueued =>
    have hfalse : active = false := hm.message _ rfl
    subst hfalse
    exact ⟨fun h => absurd h (by simp), fun _ => rfl⟩
  | configure => exact absurd (hm.message _ rfl) (by simp [Expected, Call.keepsReception])
  | flush => exact absurd (hm.message _ rfl) (by simp [Expected, Call.keepsReception])
  | timedOut => exact absurd (hm.message _ rfl) (by simp [Expected])
  | @opened p name opts r cont => exact absurd cont ((hm.response p r rfl).1 name opts)
  | closed cont => exact absurd cont (hm.response _ _ rfl).2.1
  | notified =>
    have htrue : active = true := hm.message _ rfl
    subst htrue
    exact ⟨fun _ => ⟨readMessages_reportMessages _ _, by simp [afterData]⟩, fun h => absurd h (by simp)⟩
  | failed =>
    have htrue : active = true := hm.message _ rfl
    subst htrue
    exact ⟨fun _ => ⟨readMessages_reportMessages _ _, rfl⟩, fun h => absurd h (by simp)⟩
  | @answered _ _ reply _ not_message =>
    refine ⟨fun _ => ⟨?_, rfl⟩, fun _ => rfl⟩
    cases reply with
    | message m => exact absurd rfl (not_message m)
    | _ => rfl
  | readData cont =>
    have hfalse := (hm.response _ _ rfl).2.2 ⟨_, _, cont⟩
    subst hfalse
    exact ⟨fun h => absurd h (by simp), fun _ => rfl⟩
  | readMore cont =>
    have hfalse := (hm.response _ _ rfl).2.2 ⟨_, _, cont⟩
    subst hfalse
    refine ⟨fun h => absurd h (by simp), fun _ => ?_⟩
    unfold handleRead
    split <;> rfl
  | _ => exact ⟨fun _ => ⟨rfl, rfl⟩, fun _ => rfl⟩

/-! ## The run -/

theorem receiving_init {active : Bool} {f₀ : Framer β} {σ : Server β} (hf : f₀.framing ≠ .none)
    (hu : f₀.Usable) (ho : Opened active f₀ σ) : Receiving active f₀ [] σ where
  coherent p hp := absurd hp (by simp [ho.idle])
  usable := by rw [ho.framer]; exact hu
  timeout := ho.timeout
  live := ho.live
  dest := ho.dest
  expected m hm := absurd hm (by simp [ho.mailbox])
  waits p hp := absurd hp (by simp [ho.idle])
  answer r hr := absurd hr (by simp [ho.mailbox, responses])
  stream := by simp [ho.mailbox, arrivedData, mailData]
  framing := ⟨_, by rw [ho.framer]; exact Framer.removeFraming_nil hf hu⟩
  account := by simp [ho.queue]
  sends _ := ⟨rfl, ho.queue⟩
  reads _ := rfl

/-- In one mode, the data in front of a response is none, or the response has none. -/
theorem Receiving.data_order {active : Bool} {f₀ : Framer β} {h : List (Label β)} {σ : Server β}
    (R : Receiving active f₀ h σ) {before after : List (Msg β)} {r : Response β}
    (hm : σ.mailbox = before ++ .resp r :: after) (hno : ∀ r', .resp r' ∉ before) :
    r.bytes = [] ∨ mailData before = [] := by
  by_cases hr : r.bytes = []
  · exact .inl hr
  right
  have hmem : r ∈ responses σ.mailbox := by rw [hm, responses_append]; simp [responses]
  obtain ⟨-, p, hp, hread⟩ := R.answer r hmem
  have hfalse := (R.waits p hp).2.2 (hread hr)
  -- In passive mode no notification is about.
  refine List.flatMap_eq_nil_iff.mpr fun m hmb => ?_
  have he := R.expected m (by rw [hm]; exact List.mem_append_left _ hmb)
  cases m with
  | notif n => exact absurd (show active = true from he) (by simp [hfalse])
  | resp r' => exact absurd hmb (hno r')
  | _ => rfl

/-- Something arrives behind what is in the mailbox. -/
theorem Receiving.arrived {active : Bool} {f₀ : Framer β} {h : List (Label β)} {σ : Server β}
    (R : Receiving active f₀ h σ) {m : Msg β} (hm : ∀ t, m ≠ .rxFramingTimedOut t)
    (hr : Receives active σ (.arrive m)) :
    Receiving active f₀ (h ++ [.arrived m]) { σ with mailbox := σ.mailbox ++ [m] } := by
  have hexp : Expected active m := by
    cases m with
    | resp r => trivial
    | rxFramingTimedOut t => exact absurd rfl (hm t)
    | _ => exact hr
  refine { R with
    expected := ?_, answer := ?_, stream := ?_, framing := ?_, account := ?_, sends := ?_,
    reads := ?_ }
  · intro m' hm'
    rcases List.mem_append.mp hm' with hm' | hm'
    · exact R.expected m' hm'
    · obtain rfl := List.mem_singleton.mp hm'
      exact hexp
  · rw [responses_append]
    cases m with
    | resp r =>
      intro r' hr'
      obtain ⟨hnone, p, hp, hread⟩ : PortAnswers σ r := hr
      rw [hnone, List.nil_append] at hr' ⊢
      obtain rfl := List.mem_singleton.mp hr'
      exact ⟨rfl, p, hp, hread⟩
    | _ => simpa [responses] using R.answer
  · rw [arrivedData_append, R.stream, fed_append, mailData_append]
    simp [Label.arrivedData, Label.fed, arrivedData, mailData]
  · simpa [Label.fed, Label.framed] using R.framing
  · simpa [Label.delivered, Label.framed] using R.account
  · intro ha
    simpa [Label.readMessage] using R.sends ha
  · intro ha
    simpa [Label.sentMessage] using R.reads ha

/-- What a turn takes, and what it leaves behind. -/
structure Taking (active : Bool) (σ : Server β) (taken : Taken β) (rest : List (Msg β)) : Prop where
  may : MayTake active taken
  coherent : ∀ p r, taken = .response p r → Coherent σ.state p
  reading : ∀ p r, taken = .response p r → r.bytes ≠ [] →
    ∃ timeout callTime, p.cont = .reading timeout callTime
  left : ∀ m ∈ rest, m ∈ σ.mailbox
  answered : responses rest = []
  bytes : mailData σ.mailbox = taken.bytes ++ mailData rest

theorem Receiving.takes {active : Bool} {f₀ : Framer β} {h : List (Label β)} {σ : Server β}
    (R : Receiving active f₀ h σ) {taken : Taken β} {rest : List (Msg β)}
    (hnext : next σ = some (taken, rest)) : Taking active σ taken rest := by
  rcases next_eq_some hnext with ⟨m, rfl, hidle, hm⟩ | ⟨p, r, before, after, rfl, hpend, hm, rfl, hno⟩
  · have hnone : responses σ.mailbox = [] := List.eq_nil_iff_forall_not_mem.mpr fun r hr => by
      obtain ⟨-, p, hp, -⟩ := R.answer r hr
      exact absurd hp (by simp [hidle])
    refine ⟨⟨fun m' hm' => ?_, fun p r heq => absurd heq (by simp)⟩,
      fun p r heq => absurd heq (by simp), fun p r heq => absurd heq (by simp),
      fun m' hm' => by rw [hm]; exact List.mem_cons_of_mem _ hm', ?_, by rw [hm]; rfl⟩
    · obtain rfl := Taken.message.inj hm'
      exact R.expected m (by rw [hm]; exact List.mem_cons_self)
    · rw [hm] at hnone
      cases m with
      | resp r => exact absurd hnone (by simp [responses])
      | _ => exact hnone
  · have hmem : r ∈ responses σ.mailbox := by rw [hm, responses_append]; simp [responses]
    obtain ⟨hone, p', hp', hread⟩ := R.answer r hmem
    obtain rfl : p = p' := by simpa [hpend] using hp'
    rw [hm, responses_append, responses_eq_nil hno] at hone
    refine ⟨⟨fun m heq => absurd heq (by simp), fun p' r' heq => ?_⟩, fun p' r' heq => ?_,
      fun p' r' heq => ?_, fun m' hm' => ?_, ?_, ?_⟩
    · obtain ⟨rfl, rfl⟩ := Taken.response.inj heq
      exact R.waits p hpend
    · obtain ⟨rfl, rfl⟩ := Taken.response.inj heq
      exact R.coherent p hpend
    · obtain ⟨rfl, rfl⟩ := Taken.response.inj heq
      exact hread
    · rw [hm]
      rcases List.mem_append.mp hm' with hm' | hm'
      · exact List.mem_append_left _ hm'
      · exact List.mem_append_right _ (List.mem_cons_of_mem _ hm')
    · rw [responses_append, responses_eq_nil hno]
      simpa [responses] using hone
    · rw [hm, mailData_append, mailData_cons, mailData_append]
      rcases R.data_order hm hno with hb | hb
      · simp [Taken.bytes, Msg.bytes, hb]
      · simp [Taken.bytes, Msg.bytes, hb]

/-- In passive mode there is no notification to overtake a message, and in active mode no
message to be overtaken. -/
theorem Receiving.not_overtakes {active : Bool} {f₀ : Framer β} {h : List (Label β)} {σ : Server β}
    (R : Receiving active f₀ h σ) {taken : Taken β} (hmay : MayTake active taken) :
    ¬ overtakes σ.state taken := by
  intro ho
  cases taken with
  | message m =>
    cases m with
    | notif n =>
      cases n with
      | data data => exact ho.1 (R.sends (hmay.message _ rfl)).2
      | error reason => exact ho
    | rxFramingTimedOut t => exact hmay.message _ rfl
    | _ => exact ho
  | response p r => exact ho

/-- A turn goes on with the stream where the last one stopped. -/
theorem Receiving.turn {active : Bool} {f₀ : Framer β} {h : List (Label β)} {σ : Server β}
    (hf : f₀.framing ≠ .none) (R : Receiving active f₀ h σ) {now clock : Int}
    {taken : Taken β} {rest : List (Msg β)} {ran : Ran β} (hnext : next σ = some (taken, rest))
    (hrun : run σ.state σ.timers now clock taken = some ran)
    (hcoherent : PendingOk ⟨ran.state, ran.timers, ran.pending, rest⟩) :
    Receiving active f₀ (h ++ ran.out) ⟨ran.state, ran.timers, ran.pending, rest⟩ := by
  have hturn := turn_of_run hrun
  obtain ⟨rc₀, hframing⟩ := R.framing
  obtain ⟨hmay, hco, hdata, hleft, hresp, hbytes⟩ := R.takes hnext
  obtain ⟨htimeout, hlive⟩ := hturn.keeps hmay R.timeout R.live
  have hdest := hturn.dest R.dest
  have hfed := hturn.fed_eq hdata
  have hacc := hturn.accounts hco (fun p r heq => (hmay.response p r heq).2.1) R.dest
    (R.not_overtakes hmay)
  have hone := hturn.oneWay hmay
  have hfeeds := hturn.feeds hco hmay.not_touches
  have hframed : ∃ rc, f₀.removeFraming (fed (h ++ ran.out)) =
      some (rc, framed (h ++ ran.out), ran.state.framer) := by
    rw [fed_append, framed_append]
    rcases hfeeds with ⟨hnofed, hnoframed, hsame⟩ | ⟨rc, hrem⟩
    · exact ⟨rc₀, by rw [hnofed, hnoframed, hsame, List.append_nil, List.append_nil]; exact hframing⟩
    · exact ⟨rc, Framer.removeFraming_append hf hframing hrem⟩
  refine ⟨hcoherent, ?_, htimeout, hlive, hdest, fun m hm => R.expected m (hleft m hm),
    hturn.waits hmay, fun r hr => absurd hr (by simp [hresp]), ?_, hframed, ?_, ?_, ?_⟩
  · rcases hfeeds with ⟨-, -, hsame⟩ | ⟨rc, hrem⟩
    · rw [hsame]
      exact R.usable
    · exact R.usable.removeFraming hrem
  · rw [arrivedData_append, hturn.arrivedData_eq, List.append_nil, R.stream, hbytes, fed_append,
      hfed, List.append_assoc]
  · rw [delivered_append, framed_append, List.append_assoc, hacc, ← List.append_assoc, R.account]
  · intro ha
    obtain ⟨hreads, hqueue⟩ := hone.1 ha
    rw [readMessages_append, hreads, List.append_nil, hqueue]
    exact R.sends ha
  · intro ha
    rw [sentMessages_append, hone.2 ha, List.append_nil]
    exact R.reads ha

theorem Receiving.step {active : Bool} {f₀ : Framer β} {h out : List (Label β)}
    {σ σ' : Server β} {e : Event β} (hf : f₀.framing ≠ .none) (R : Receiving active f₀ h σ)
    (hr : Receives active σ e) (hs : Server.step σ e = some (σ', out)) :
    Receiving active f₀ (h ++ out) σ' := by
  have hcoherent := step_pendingOk hs R.coherent
  rcases step_cases hs with ⟨m, rfl, hm, rfl, rfl⟩ | ⟨t, rfl, hlive, rfl, rfl⟩ |
    ⟨now, clock, taken, rest, ran, rfl, hnext, hrun, rfl, rfl⟩
  · exact R.arrived hm hr
  · exact absurd hlive (by simp [R.live])
  · exact R.turn hf hnext hrun hcoherent

theorem receiving_of_reach {active : Bool} {f₀ : Framer β} {σ₀ σ : Server β} {h : List (Label β)}
    (hf : f₀.framing ≠ .none) (hu : f₀.Usable) (ho : Opened active f₀ σ₀)
    (r : Reach step (fun _ σ e => Receives active σ e) σ₀ h σ) : Receiving active f₀ h σ := by
  have hkeep : ∀ h (σ : Server β) e σ' out, Receiving active f₀ h σ → Receives active σ e →
      Server.step σ e = some (σ', out) → Receiving active f₀ (h ++ out) σ' :=
    fun h σ e σ' out R hr hs => R.step hf hr hs
  exact Reach.invariant (receiving_init hf hu ho) hkeep r

/-- A step that receives nothing leaves the framer as it is. -/
theorem Receiving.frame {active : Bool} {f₀ : Framer β} {h out : List (Label β)} {σ σ' : Server β}
    {e : Event β} (hf : f₀.framing ≠ .none) (R : Receiving active f₀ h σ)
    (hr : Receives active σ e) (hs : Server.step σ e = some (σ', out)) (hout : fed out = []) :
    σ'.state.framer = σ.state.framer := by
  obtain ⟨rc, hbefore⟩ := R.framing
  obtain ⟨rc', hafter⟩ := (R.step hf hr hs).framing
  rw [fed_append, hout, List.append_nil, hbefore] at hafter
  obtain ⟨-, -, hsame⟩ : rc = rc' ∧ framed h = framed (h ++ out) ∧
      σ.state.framer = σ'.state.framer := by simpa using hafter
  exact hsame.symm

/-- **Active and passive delivery agree.** Two servers with the same framer, one in active
and one in passive mode, have received the same bytes, all of them. Then

* the messages sent by the one are the messages read from the other, followed by those it
  has queued, and both are what the framer makes of the whole stream;
* both framers have ended in the same state, from which whatever comes next is framed;
* in either run, a step that receives nothing leaves the framer as it is. -/
theorem active_passive_agree {f₀ : Framer β} (hf : f₀.framing ≠ .none) (hu : f₀.Usable)
    {σ₀ τ₀ σ τ : Server β} {h k : List (Label β)} (ho : Opened true f₀ σ₀)
    (hp : Opened false f₀ τ₀) (r : Reach step (fun _ σ e => Receives true σ e) σ₀ h σ)
    (q : Reach step (fun _ σ e => Receives false σ e) τ₀ k τ) (hσ : mailData σ.mailbox = [])
    (hτ : mailData τ.mailbox = []) (same : arrivedData h = arrivedData k) :
    sentMessages h = readMessages k ++ τ.state.queuedMessages ∧
      (∃ rc, f₀.removeFraming (arrivedData h) = some (rc, sentMessages h, σ.state.framer)) ∧
      σ.state.framer = τ.state.framer ∧
      (∀ data, ∃ rc ms f, σ.state.framer.removeFraming data = some (rc, ms, f)) ∧
      (∀ e σ' out, Receives true σ e → step σ e = some (σ', out) → fed out = [] →
        σ'.state.framer = σ.state.framer) ∧
      ∀ e τ' out, Receives false τ e → step τ e = some (τ', out) → fed out = [] →
        τ'.state.framer = τ.state.framer := by
  have R := receiving_of_reach hf hu ho r
  have Q := receiving_of_reach hf hu hp q
  -- Each run has framed the whole stream.
  have hfedσ : arrivedData h = fed h := by rw [R.stream, hσ, List.append_nil]
  have hfedτ : arrivedData k = fed k := by rw [Q.stream, hτ, List.append_nil]
  obtain ⟨rc, hframing⟩ := R.framing
  obtain ⟨rc', hframing'⟩ := Q.framing
  rw [← hfedσ] at hframing
  rw [← hfedτ, ← same, hframing] at hframing'
  obtain ⟨-, hms, hframer⟩ : rc = rc' ∧ framed h = framed k ∧ σ.state.framer = τ.state.framer := by
    simpa using hframing'
  -- In active mode everything framed has been sent, in passive mode read or queued.
  have hsent : sentMessages h = framed h := by
    have hacc := R.account
    rw [(R.sends rfl).2, List.append_nil, delivered_eq_sentMessages (R.sends rfl).1] at hacc
    exact hacc
  have hread : readMessages k ++ τ.state.queuedMessages = framed k := by
    rw [← delivered_eq_readMessages (Q.reads rfl)]
    exact Q.account
  refine ⟨by rw [hsent, hread, hms], ⟨rc, by rw [hsent]; exact hframing⟩, hframer, fun data => ?_,
    fun e σ' out hr hs hout => R.frame hf hr hs hout,
    fun e τ' out hr hs hout => Q.frame hf hr hs hout⟩
  obtain ⟨rc, ms, f, hrem, -⟩ := Framer.exists_removeFraming R.usable data
  exact ⟨rc, ms, f, hrem⟩

/-- A server whose port was opened with the line framer and its defaults. -/
def openedLine (active : Bool) : Server UInt8 :=
  { state := {
      controllingProcess := some 0, name := .name [], framer := .init .line {},
      isActive := active } }

theorem opened_openedLine (active : Bool) :
    Opened active (.init .line {}) (openedLine active) :=
  ⟨rfl, rfl, rfl, rfl, rfl, rfl, by simp [openedLine], rfl⟩

/-- Two lines in two notifications, and in one reply to a read. -/
theorem active_passive_agree_twoLines :
    ∃ (h k : List (Label UInt8)) (τ : Server UInt8),
      arrivedData h = [65, 10, 66, 10] ∧ τ.state.queuedMessages = [.whole [66]] ∧
      sentMessages h = readMessages k ++ τ.state.queuedMessages := by
  have r₁ := Reach.step (e := (.arrive (.notif (.data [65])) : Event UInt8))
    (.start : Reach step (fun _ σ e => Receives true σ e) (openedLine true) _ _) rfl rfl
  have r₂ := Reach.step (e := (.arrive (.notif (.data [10, 66, 10])) : Event UInt8)) r₁ rfl rfl
  have r₃ := Reach.step (e := (.turn 0 0 : Event UInt8)) r₂ trivial rfl
  have r₄ := Reach.step (e := (.turn 0 0 : Event UInt8)) r₃ trivial rfl
  have q₁ := Reach.step (e := (.arrive (.call 1 (.read 0)) : Event UInt8))
    (.start : Reach step (fun _ σ e => Receives false σ e) (openedLine false) _ _) rfl rfl
  have q₂ := Reach.step (e := (.turn 0 0 : Event UInt8)) q₁ trivial rfl
  have q₃ := Reach.step (e := (.arrive (.resp (.data [65, 10, 66, 10])) : Event UInt8)) q₂
    (show PortAnswers _ (.data [65, 10, 66, 10]) from ⟨rfl, _, rfl, fun _ => ⟨0, 0, rfl⟩⟩) rfl
  have q₄ := Reach.step (e := (.turn 0 0 : Event UInt8)) q₃ trivial rfl
  have hu : (Framer.init .line {} : Framer UInt8).Usable := Framer.usable_init fun _ => by decide
  have hagree := active_passive_agree (by decide) hu (opened_openedLine true)
    (opened_openedLine false) r₄ q₄ rfl rfl rfl
  exact ⟨_, _, _, rfl, rfl, hagree.1⟩

end CircuitsUart.Server
