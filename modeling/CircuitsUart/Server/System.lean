import CircuitsUart.Lib.Run
import CircuitsUart.Server.Callbacks

/-!
# The GenServer as a process

A mailbox, the timers, and one callback at a time. A turn takes one message: the first of
the mailbox when no callback is waiting, and otherwise the first **response**, wherever it
stands (`receive` in `call_port/4` is selective, so calls, notifications and timeouts stay
where they are). Messages and expiries may come at any moment, in any order.

`step_cases` says once what a step can do, and `Turn` what a turn can do, one constructor
for each way a callback goes. Every invariant of the server is proved from them.

The constructors of `Turn` are cut by what they leave, not by which clause of `handle_call/3` was
taken: the dozen calls that send a request and pass the answer on are one of them (`Asks` says
which request it is). A clause that is added to the source in that manner changes no invariant.

`Coherent` is the one thing that is remembered across a wait. Between the two halves of a callback
no other callback runs, so what the second half finds in the state is what the first half left.
-/

set_option autoImplicit false

namespace CircuitsUart

open Server

/-- A `Circuits.UART` process. -/
structure Server (β : Type) where
  state : State β := {}
  timers : Timers := {}
  pending : Option (Pending β) := none
  mailbox : List (Msg β) := []

namespace Server

variable {β : Type}

/-- What happens to the process. A turn reads the clock up to twice. -/
inductive Event (β : Type)
  | arrive (message : Msg β)
  | expire (tref : Tref)
  | turn (now clock : Int)

/-- The selective `receive`: the first response, and the mailbox without it. -/
def takeResponse : List (Msg β) → Option (Response β × List (Msg β))
  | [] => none
  | .resp r :: rest => some (r, rest)
  | m :: rest =>
    match takeResponse rest with
    | some (r, rest') => some (r, m :: rest')
    | none => none

/-- What the next turn takes: the head of the mailbox, or a response for the callback that
waits. -/
inductive Taken (β : Type)
  | message (message : Msg β)
  | response (p : Pending β) (r : Response β)

/-- The next turn's message, and what is left in the mailbox. -/
def next (σ : Server β) : Option (Taken β × List (Msg β)) :=
  match σ.pending with
  | none =>
    match σ.mailbox with
    | [] => none
    | m :: rest => some (.message m, rest)
  | some p =>
    match takeResponse σ.mailbox with
    | none => none
    | some (r, rest) => some (.response p r, rest)

variable [Octet β]

/-- One callback, or the rest of one. A response nobody waits for has no clause. -/
def run (s : State β) (timers : Timers) (now clock : Int) : Taken β → Option (Ran β)
  | .message (.call fromPid call) => some (handleCall s timers fromPid clock call)
  | .message (.notif n) => handlePort s timers n
  -- no clause of `handle_info/2` takes it, and the process crashes
  | .message (.resp _) => none
  | .message (.rxFramingTimedOut tref) => some (handleTimedOut s timers tref)
  | .response p r => resume s timers p now clock r

/-- One step of the process. -/
def step (σ : Server β) : Event β → Option (Server β × List (Label β))
  | .arrive (.rxFramingTimedOut _) => none
  | .arrive m => some ({ σ with mailbox := σ.mailbox ++ [m] }, [.arrived m])
  | .expire tref =>
    if tref ∈ σ.timers.live then
      some ({ σ with
        timers := σ.timers.cancel tref
        mailbox := σ.mailbox ++ [.rxFramingTimedOut tref] }, [.arrived (.rxFramingTimedOut tref)])
    else none
  | .turn now clock =>
    match next σ with
    | none => none
    | some (taken, rest) =>
      match run σ.state σ.timers now clock taken with
      | none => none
      | some ran => some (⟨ran.state, ran.timers, ran.pending, rest⟩, ran.out)

/-- **What a step does.** -/
theorem step_cases {σ σ' : Server β} {e : Event β} {out : List (Label β)}
    (h : step σ e = some (σ', out)) :
    (∃ m, e = .arrive m ∧ (∀ t, m ≠ .rxFramingTimedOut t) ∧ out = [.arrived m] ∧
      σ' = { σ with mailbox := σ.mailbox ++ [m] }) ∨
    (∃ t, e = .expire t ∧ t ∈ σ.timers.live ∧ out = [.arrived (.rxFramingTimedOut t)] ∧
      σ' = { σ with
        timers := σ.timers.cancel t
        mailbox := σ.mailbox ++ [.rxFramingTimedOut t] }) ∨
    (∃ now clock taken rest ran, e = .turn now clock ∧ next σ = some (taken, rest) ∧
      run σ.state σ.timers now clock taken = some ran ∧ out = ran.out ∧
      σ' = ⟨ran.state, ran.timers, ran.pending, rest⟩) := by
  cases e with
  | arrive m =>
    left
    cases m with
    | rxFramingTimedOut t => exact absurd h (by simp [step])
    | _ =>
      simp only [step, Option.some.injEq, Prod.mk.injEq] at h
      obtain ⟨rfl, rfl⟩ := h
      exact ⟨_, rfl, fun t => by simp, rfl, rfl⟩
  | expire t =>
    right; left
    simp only [step] at h
    split at h
    · next hmem =>
      simp only [Option.some.injEq, Prod.mk.injEq] at h
      obtain ⟨rfl, rfl⟩ := h
      exact ⟨t, rfl, hmem, rfl, rfl⟩
    · exact absurd h (by simp)
  | turn now clock =>
    right; right
    simp only [step] at h
    split at h
    · exact absurd h (by simp)
    · next taken rest hnext =>
      split at h
      · exact absurd h (by simp)
      · next ran hran =>
        simp only [Option.some.injEq, Prod.mk.injEq] at h
        obtain ⟨rfl, rfl⟩ := h
        exact ⟨now, clock, taken, rest, ran, rfl, hnext, hran, rfl, rfl⟩

omit [Octet β] in
/-- The selective `receive` takes one response out and leaves the rest in place. -/
theorem takeResponse_eq_some {mailbox rest : List (Msg β)} {r : Response β}
    (h : takeResponse mailbox = some (r, rest)) :
    ∃ before after, mailbox = before ++ .resp r :: after ∧ rest = before ++ after ∧
      ∀ r', .resp r' ∉ before := by
  induction mailbox generalizing r rest with
  | nil => exact absurd h (by simp [takeResponse])
  | cons m ms ih =>
    cases m with
    | resp r₀ =>
      simp only [takeResponse, Option.some.injEq, Prod.mk.injEq] at h
      obtain ⟨rfl, rfl⟩ := h
      exact ⟨[], ms, rfl, rfl, by simp⟩
    | call | notif | rxFramingTimedOut =>
      simp only [takeResponse] at h
      split at h
      · next r₁ rest₁ hms =>
        simp only [Option.some.injEq, Prod.mk.injEq] at h
        obtain ⟨rfl, rfl⟩ := h
        obtain ⟨before, after, rfl, rfl, hno⟩ := ih hms
        exact ⟨_ :: before, after, rfl, rfl, fun r' hr' => by simp at hr'; exact hno r' hr'⟩
      · exact absurd h (by simp)

omit [Octet β] in
/-- What the next turn takes was in the mailbox, and the rest of it stays. -/
theorem next_eq_some {σ : Server β} {taken : Taken β} {rest : List (Msg β)}
    (h : next σ = some (taken, rest)) :
    (∃ m, taken = .message m ∧ σ.pending = none ∧ σ.mailbox = m :: rest) ∨
    (∃ p r before after, taken = .response p r ∧ σ.pending = some p ∧
      σ.mailbox = before ++ .resp r :: after ∧ rest = before ++ after ∧
      ∀ r', .resp r' ∉ before) := by
  unfold next at h
  split at h
  · next hp =>
    split at h
    · exact absurd h (by simp)
    · next m rest' hm =>
      simp only [Option.some.injEq, Prod.mk.injEq] at h
      obtain ⟨rfl, rfl⟩ := h
      exact .inl ⟨m, rfl, hp, hm⟩
  · next p hp =>
    split at h
    · exact absurd h (by simp)
    · next r rest' ht =>
      simp only [Option.some.injEq, Prod.mk.injEq] at h
      obtain ⟨rfl, rfl⟩ := h
      obtain ⟨before, after, hm, hrest, hno⟩ := takeResponse_eq_some ht
      exact .inr ⟨p, r, before, after, rfl, hp, hm, hrest, hno⟩

/-! ## What a turn does -/

/-- The calls that go to the port with the state as it is, the command they send and what
they leave for afterwards. -/
inductive Asks (s : State β) (clock : Int) : Call → Command → Cont β → Prop
  | open (name : List UInt8) (opts : List UartOption) :
      Asks s clock (.open name opts) (.open name opts) (.opening name opts)
  | configuration : Asks s clock .configuration .configuration .configuration
  | close : Asks s clock .close .close .closing
  | read (timeout : Nat) (queue : s.queuedMessages = []) :
      Asks s clock (.read timeout) (.read timeout) (.reading timeout clock)
  | write (data : List UInt8) (timeout : Nat) :
      Asks s clock (.write data timeout) (.write (s.framer.addFraming data).1 timeout)
        (.writing s.framer)
  | drain : Asks s clock .drain .drain .passing
  | signals : Asks s clock .signals .signals .passing
  | setDtr (value : Bool) : Asks s clock (.setDtr value) (.setDtr value) .passing
  | setRts (value : Bool) : Asks s clock (.setRts value) (.setRts value) .passing
  | setBreak (value : Bool) : Asks s clock (.setBreak value) (.setBreak value) .passing

/-- The state after received data, as the read loop and `handle_port/2` leave it. -/
def afterData (s : State β) (timers : Timers) (framer : Framer β) (rc : Rc) : Timed β :=
  handleFramingTimer { s with framer := framer } timers rc

/-- How a turn goes: what it takes and how it leaves the server. -/
inductive Turn (s : State β) (timers : Timers) : Taken β → Ran β → Prop
  | ask {pid : Pid} {call : Call} {clock : Int} {command : Command} {cont : Cont β}
      (asks : Asks s clock call command cont) :
      Turn s timers (.message (.call pid call)) (callPort s timers pid command cont [])
  | readQueued {pid : Pid} {timeout : Nat} {m : Message β} {rest : List (Message β)}
      (queue : s.queuedMessages = m :: rest) :
      Turn s timers (.message (.call pid (.read timeout)))
        (replyWith { s with queuedMessages := rest } timers pid (.message m) [])
  | configure {pid : Pid} {opts : List UartOption} :
      Turn s timers (.message (.call pid (.configure opts))) (handleConfigure s timers pid opts)
  | flush {pid : Pid} {direction : Direction} :
      Turn s timers (.message (.call pid (.flush direction))) (handleFlush s timers pid direction)
  | control {pid dest : Pid} :
      Turn s timers (.message (.call pid (.controllingProcess dest)))
        (replyWith { s with controllingProcess := some dest } timers pid .ok [])
  | notified {data : List β} {rc : Rc} {ms : List (Message β)} {framer : Framer β}
      (framed : s.framer.removeFraming data = some (rc, ms, framer)) :
      Turn s timers (.message (.notif (.data data)))
        ⟨(afterData s timers framer rc).state, (afterData s timers framer rc).timers, none,
          .received data rc ms (afterData s timers framer rc).started ::
            reportMessages (afterData s timers framer rc).state (ms.map .message)⟩
  | failed {reason : Reason} :
      Turn s timers (.message (.notif (.error reason)))
        ⟨s, timers, none, reportMessages s [.error reason]⟩
  | timedOut {tref : Tref} :
      Turn s timers (.message (.rxFramingTimedOut tref)) (handleTimedOut s timers tref)
  | opened {p : Pending β} {name : List UInt8} {opts : List UartOption} {r : Response β}
      (cont : p.cont = .opening name opts) :
      Turn s timers (.response p r) (resumeOpening s timers p.fromPid name opts r)
  | closed {p : Pending β} {r : Response β} (cont : p.cont = .closing) :
      Turn s timers (.response p r) (resumeClosing s timers p.fromPid r)
  | answered {p : Pending β} {r : Response β} {reply : Reply β}
      (cont : p.cont = .configuration ∨ p.cont = .passing ∨
        ∃ timeout callTime, p.cont = .reading timeout callTime ∧ r.bytes = [])
      (not_message : ∀ m, reply ≠ .message m) :
      Turn s timers (.response p r) (replyWith s timers p.fromPid reply [])
  | wrote {p : Pending β} {framer : Framer β} {r : Response β} (cont : p.cont = .writing framer) :
      Turn s timers (.response p r)
        (replyWith { s with framer := framer } timers p.fromPid (.port r) [])
  | readData {p : Pending β} {timeout : Nat} {callTime : Int} {data : List β} {rc : Rc}
      {m : Message β} {rest : List (Message β)} {framer : Framer β}
      (cont : p.cont = .reading timeout callTime) (ne : data ≠ [])
      (framed : s.framer.removeFraming data = some (rc, m :: rest, framer)) :
      Turn s timers (.response p (.data data))
        (replyWith { (afterData s timers framer rc).state with queuedMessages := rest }
          (afterData s timers framer rc).timers p.fromPid (.message m)
          [.received data rc (m :: rest) (afterData s timers framer rc).started])
  | readMore {p : Pending β} {timeout retryTimeout : Nat} {callTime clock : Int} {data : List β}
      {rc : Rc} {framer : Framer β} (cont : p.cont = .reading timeout callTime) (ne : data ≠ [])
      (framed : s.framer.removeFraming data = some (rc, [], framer)) :
      Turn s timers (.response p (.data data))
        (handleRead (afterData s timers framer rc).state (afterData s timers framer rc).timers p.fromPid
          retryTimeout clock [.received data rc [] (afterData s timers framer rc).started])

/-- A call asks the port, or is answered at once. -/
theorem turn_of_call (s : State β) (timers : Timers) (clock : Int) (pid : Pid) (call : Call) :
    Turn s timers (.message (.call pid call)) (handleCall s timers pid clock call) := by
  have ask : ∀ {call : Call} {command : Command} {cont : Cont β},
      Asks s clock call command cont →
      Turn s timers (.message (.call pid call)) (callPort s timers pid command cont []) := .ask
  cases call with
  | «open» name opts => exact ask (.open name opts)
  | configuration => exact ask .configuration
  | close => exact ask .close
  | read timeout =>
    cases hq : s.queuedMessages with
    | nil =>
      have : handleRead s timers pid timeout clock [] =
          callPort s timers pid (.read timeout) (.reading timeout clock) [] := by
        rw [handleRead, hq]
      rw [handleCall, this]
      exact .ask (.read timeout hq)
    | cons m rest =>
      have : handleRead s timers pid timeout clock [] =
          replyWith { s with queuedMessages := rest } timers pid (.message m) [] := by
        rw [handleRead, hq]
      rw [handleCall, this]
      exact .readQueued hq
  | write data timeout =>
    rw [handleCall, Framer.addFraming_snd]
    exact ask (.write data timeout)
  | configure opts => exact .configure
  | drain => exact ask .drain
  | flush direction => exact .flush
  | signals => exact ask .signals
  | setDtr value => exact ask (.setDtr value)
  | setRts value => exact ask (.setRts value)
  | setBreak value => exact ask (.setBreak value)
  | controllingProcess dest => exact .control

/-- A response is what a waiting callback goes on with. -/
theorem turn_of_resume {s : State β} {timers : Timers} {p : Pending β} {now clock : Int}
    {r : Response β} {ran : Ran β} (h : resume s timers p now clock r = some ran) :
    Turn s timers (.response p r) ran := by
  unfold resume at h
  split at h
  · next name opts hcont =>
    simp only [Option.some.injEq] at h
    subst h
    exact .opened hcont
  · next hcont =>
    split at h
    · simp only [Option.some.injEq] at h
      subst h
      exact .answered (.inl hcont) (by simp)
    · exact absurd h (by simp)
  · next hcont =>
    simp only [Option.some.injEq] at h
    subst h
    exact .closed hcont
  · next timeout callTime hcont =>
    unfold resumeReading at h
    split at h
    · simp only [Option.some.injEq] at h
      subst h
      exact .answered (.inr (.inr ⟨timeout, callTime, hcont, rfl⟩)) (by simp)
    · next b bs =>
      split at h
      · exact absurd h (by simp)
      · next rc ms framer hframed =>
        split at h
        · simp only [Option.some.injEq] at h
          subst h
          exact .readMore hcont (by simp) hframed
        · simp only [Option.some.injEq] at h
          subst h
          exact .readData hcont (by simp) hframed
    · next hnil hcons =>
      simp only [Option.some.injEq] at h
      subst h
      refine .answered (.inr (.inr ⟨timeout, callTime, hcont, ?_⟩)) (by simp)
      cases r with
      | data bytes => cases bytes with
        | nil => rfl
        | cons b bs => exact absurd rfl (hcons b bs)
      | _ => rfl
  · next framer hcont =>
    simp only [Option.some.injEq] at h
    subst h
    exact .wrote hcont
  · next hcont =>
    simp only [Option.some.injEq] at h
    subst h
    exact .answered (.inr (.inl hcont)) (by simp)

/-- **What a turn does.** -/
theorem turn_of_run {s : State β} {timers : Timers} {now clock : Int} {taken : Taken β}
    {ran : Ran β} (h : run s timers now clock taken = some ran) : Turn s timers taken ran := by
  cases taken with
  | message m =>
    cases m with
    | call pid call =>
      obtain rfl := Option.some.inj h
      exact turn_of_call s timers clock pid call
    | notif n =>
      cases n with
      | data data =>
        simp only [run, handlePort] at h
        split at h
        · exact absurd h (by simp)
        · next rc ms framer hframed =>
          simp only [Option.some.injEq] at h
          subst h
          exact .notified hframed
      | error reason =>
        simp only [run, handlePort, Option.some.injEq] at h
        subst h
        exact .failed
    | resp r => exact absurd h (by simp [run])
    | rxFramingTimedOut tref =>
      simp only [run, Option.some.injEq] at h
      subst h
      exact .timedOut
  | response p r =>
    exact turn_of_resume h

/-! ## A callback that waits still holds its own state -/

omit [Octet β] in
/-- What a waiting callback remembers agrees with the state, which nothing has changed
since: a read found nothing queued, a write kept the framer. -/
def Coherent (s : State β) (p : Pending β) : Prop :=
  match p.cont with
  | .reading _ _ => s.queuedMessages = []
  | .writing framer => framer = s.framer
  | _ => True

/-- A callback that waits holds the state it was called with. -/
def PendingOk (σ : Server β) : Prop := ∀ p, σ.pending = some p → Coherent σ.state p

omit [Octet β] in
theorem Asks.coherent {s : State β} {clock : Int} {call : Call} {command : Command}
    {cont : Cont β} (h : Asks s clock call command cont) (pid : Pid) :
    Coherent s ⟨pid, command, cont⟩ := by
  cases h with
  | read timeout queue => exact queue
  | write data timeout => rfl
  | _ => trivial

theorem Turn.pendingOk {s : State β} {timers : Timers} {taken : Taken β} {ran : Ran β}
    (h : Turn s timers taken ran) : ∀ p, ran.pending = some p → Coherent ran.state p := by
  intro p hp
  cases h with
  | ask asks =>
    obtain rfl := Option.some.inj hp
    exact asks.coherent _
  | configure | flush =>
    obtain rfl := Option.some.inj hp
    trivial
  | @readMore _ _ _ _ _ _ _ framer cont ne framed =>
    unfold handleRead at hp ⊢
    split at hp
    · exact absurd hp (by simp [replyWith])
    · next hq =>
      obtain rfl := Option.some.inj hp
      exact hq
  | _ => exact absurd hp (by simp [replyWith, resumeOpening, resumeClosing, handleTimedOut])

/-- **A step keeps what waiting callbacks rely on.** -/
theorem step_pendingOk {σ σ' : Server β} {e : Event β} {out : List (Label β)}
    (h : step σ e = some (σ', out)) (hp : PendingOk σ) : PendingOk σ' := by
  rcases step_cases h with ⟨m, rfl, -, rfl, rfl⟩ | ⟨t, rfl, -, rfl, rfl⟩ |
    ⟨now, clock, taken, rest, ran, rfl, -, hrun, rfl, rfl⟩
  · exact hp
  · exact hp
  · exact (turn_of_run hrun).pendingOk

end Server

end CircuitsUart
