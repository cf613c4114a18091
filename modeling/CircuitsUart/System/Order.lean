import CircuitsUart.Server.Delivery
import CircuitsUart.System.Compose

/-!
# In order, across mode switches

Bytes are read from the device, fed to the framer and framed; messages are queued and
delivered. Whatever the modes, each of these is in the order of the one before as long as
no turn goes out of turn: a message is not sent past a queued one (`overtakes`), and the
data of a response is not taken past data in front of it in the mailbox (`jumps`).

The framer is fixed: the calls are those that neither replace nor flush it.

The account is one of sequences and not of sets. Each of the four stages is a list that is read off
the history (what was read, fed, framed and delivered), and what has passed one stage but not the
next is somewhere in the state: in the pipe or the mailbox, in the framer, in the queue. `Ordered`
is three equations, one for each pair of stages, and every step moves something from the front of
one of these places to the end of another.

Both conditions can fail, since `receive` in `call_port/4` is selective and a switch to active mode
leaves the queue where it is. A run that goes out of turn in either way is at the end.
-/

set_option autoImplicit false

namespace CircuitsUart

open Lib Port Server

namespace Server

variable {β : Type}

/-- The calls that leave the framer as it is. -/
def Call.keepsFramer : Call → Bool
  | .open _ opts => (keywordGet (fun o => o.framing?.map some) opts none).isNone
  | .configure opts => (keywordGet (fun o => o.framing?.map some) opts none).isNone
  | .close => false
  | .flush direction => direction = .transmit
  | _ => true

/-- What is in front of the first response. -/
def ahead : List (Msg β) → List (Msg β)
  | [] => []
  | .resp _ :: _ => []
  | m :: rest => m :: ahead rest

theorem ahead_eq {before after : List (Msg β)} {r : Response β} (h : ∀ r', .resp r' ∉ before) :
    ahead (before ++ .resp r :: after) = before := by
  induction before with
  | nil => rfl
  | cons m before ih =>
    have rest := ih fun r' hr => h r' (List.mem_cons_of_mem _ hr)
    cases m with
    | resp r' => exact absurd List.mem_cons_self (h r')
    | _ => exact congrArg (_ :: ·) rest

/-- The turns that would take received data past data in front of it. -/
def jumps (mailbox : List (Msg β)) : Taken β → Prop
  | .message _ => False
  | .response _ r => r.bytes ≠ [] ∧ mailData (ahead mailbox) ≠ []

instance (mailbox : List (Msg β)) : DecidablePred (jumps mailbox)
  | .message _ => inferInstanceAs (Decidable False)
  | .response _ r => inferInstanceAs (Decidable (r.bytes ≠ [] ∧ mailData (ahead mailbox) ≠ []))

variable [Octet β]

theorem overtakes_notif {s : State β} {data : List β} :
    overtakes s (.message (.notif (.data data))) ↔
      s.queuedMessages ≠ [] ∧ (s.framer.removeFraming data).map (·.2.1) ≠ some [] := by
  have : (∀ rc framer, s.framer.removeFraming data ≠ some (rc, [], framer)) ↔
      (s.framer.removeFraming data).map (·.2.1) ≠ some [] := by
    cases s.framer.removeFraming data with
    | none => simp
    | some result =>
      obtain ⟨rc, ms, framer⟩ := result
      cases ms <;> simp
  exact and_congr Iff.rfl this

instance [DecidableEq β] (s : State β) : DecidablePred (overtakes s)
  | .message (.notif (.data _)) => decidable_of_iff _ overtakes_notif.symm
  | .message (.rxFramingTimedOut _) =>
    inferInstanceAs (Decidable (s.queuedMessages ≠ [] ∧ s.isActive = true ∧ _ ≠ []))
  | .message (.notif (.error _)) | .message (.call _ _) | .message (.resp _) | .response _ _ =>
    inferInstanceAs (Decidable False)

/-- What may be waited for in a run that keeps the framer. -/
def Pending.KeepsFramer (p : Pending β) : Prop :=
  p.cont ≠ .closing ∧ ∀ name opts, p.cont = .opening name opts →
    keywordGet (fun o => o.framing?.map some) opts none = none

/-- What may be taken. -/
def Taken.KeepsFramer : Taken β → Prop
  | .message (.call _ call) => call.keepsFramer = true
  | .message _ => True
  | .response p _ => p.KeepsFramer

theorem Turn.keepsFramer {s : State β} {timers : Timers} {taken : Taken β} {ran : Ran β}
    (h : Turn s timers taken ran) (hk : taken.KeepsFramer) :
    ∀ p, ran.pending = some p → p.KeepsFramer := by
  intro p hp
  cases h with
  | ask asks =>
    obtain rfl := Option.some.inj hp
    cases asks with
    | «open» name opts =>
      refine ⟨by simp, fun name' opts' heq => ?_⟩
      obtain ⟨-, rfl⟩ := Cont.opening.inj heq
      exact Option.isNone_iff_eq_none.mp hk
    | close => exact absurd hk (by simp [Taken.KeepsFramer, Call.keepsFramer])
    | _ => exact ⟨by simp, by simp⟩
  | configure | flush =>
    obtain rfl := Option.some.inj hp
    exact ⟨by simp, by simp⟩
  | readMore =>
    unfold handleRead at hp
    split at hp
    · exact absurd hp (by simp [replyWith])
    · obtain rfl := Option.some.inj hp
      exact ⟨by simp, by simp⟩
  | _ => exact absurd hp (by simp [replyWith, resumeOpening, resumeClosing, handleTimedOut])

omit [Octet β] in
/-- Of these, only a framing timeout touches the framer. -/
theorem Taken.KeepsFramer.timeout {taken : Taken β} (hk : taken.KeepsFramer)
    (ht : touchesFramer taken) : ∃ tref, taken = .message (.rxFramingTimedOut tref) := by
  cases taken with
  | message m =>
    cases m with
    | call pid call =>
      cases call with
      | configure opts => exact absurd (Option.isNone_iff_eq_none.mp hk) ht
      | flush direction => exact absurd (by simpa [KeepsFramer, Call.keepsFramer] using hk) ht
      | _ => exact ht.elim
    | rxFramingTimedOut tref => exact ⟨tref, rfl⟩
    | _ => exact ht.elim
  | response p r =>
    rcases ht with ⟨name, opts, hcont, hne⟩ | hclose
    · exact absurd (hk.2 name opts hcont) hne
    · exact absurd hclose hk.1

end Server

namespace System

variable {β : Type}

/-- The server's labels. -/
def Label.server? : Label β → Option (Server.Label β)
  | .server l => some l
  | _ => none

def serverLabels (h : List (Label β)) : List (Server.Label β) := h.filterMap Label.server?

/-- What the C program read from the device, in order. -/
def inputs (h : List (Label β)) : List β :=
  h.flatMap fun
    | .input data => data
    | _ => []

@[simp] theorem serverLabels_append (a b : List (Label β)) :
    serverLabels (a ++ b) = serverLabels a ++ serverLabels b := by
  simp [serverLabels]

@[simp] theorem inputs_append (a b : List (Label β)) : inputs (a ++ b) = inputs a ++ inputs b := by
  simp [inputs]

@[simp] theorem serverLabels_map (out : List (Server.Label β)) :
    serverLabels (out.map .server) = out := by
  simp [serverLabels, Label.server?, List.filterMap_map, Function.comp_def]

@[simp] theorem inputs_map (out : List (Server.Label β)) : inputs (out.map .server) = [] := by
  simp [inputs, List.flatMap_map]

/-- A port has been opened with the framer `f₀`, and nothing has been received. -/
structure Started (f₀ : Framer β) (σ : System β) : Prop where
  framer : σ.server.state.framer = f₀
  queue : σ.server.state.queuedMessages = []
  dest : σ.server.state.controllingProcess ≠ none
  waits : σ.server.pending = none
  mailbox : σ.server.mailbox = []
  idle : σ.program.pending = false
  stdin : σ.stdin = []
  stdout : σ.stdout = []

/-- Only calls that keep the framer are made. -/
def Event.keepsFramer : Event β → Bool
  | .call _ c => c.keepsFramer
  | _ => true

variable [Octet β]

/-- A turn is in turn. -/
def InTurn (σ : System β) : Event β → Prop
  | .turn _ _ =>
    match Server.next σ.server with
    | some (taken, _) => ¬ overtakes σ.server.state taken ∧ ¬ jumps σ.server.mailbox taken
    | none => True
  | _ => True

instance [DecidableEq β] (σ : System β) : DecidablePred (InTurn σ)
  | .turn _ _ =>
    match h : Server.next σ.server with
    | some (taken, _) =>
      decidable_of_iff (¬ overtakes σ.server.state taken ∧ ¬ jumps σ.server.mailbox taken)
        (by rw [InTurn, h])
    | none => isTrue (by rw [InTurn, h]; trivial)
  | .call _ _ | .expire _ | .request _ | .process _ | .deliver => inferInstanceAs (Decidable True)

/-- What holds of a run that keeps the framer, in turn. -/
structure Ordered (f₀ : Framer β) (h : List (Label β)) (σ : System β) : Prop where
  aligned : Aligned σ
  dest : σ.server.state.controllingProcess ≠ none
  calls : ∀ pid call, .call pid call ∈ σ.server.mailbox → call.keepsFramer = true
  waits : ∀ p, σ.server.pending = some p → p.KeepsFramer
  stream : inputs h = fed (serverLabels h) ++ mailData σ.incoming
  account : delivered (serverLabels h) ++ σ.server.state.queuedMessages = framed (serverLabels h)
  framing : f₀.Usable → (∀ tref framer timeout, .timedOut tref framer timeout ∉ serverLabels h) →
    ∃ rc, f₀.removeFraming (fed (serverLabels h)) =
      some (rc, framed (serverLabels h), σ.server.state.framer)

theorem ordered_init {f₀ : Framer β} {σ : System β} (hf : f₀.framing ≠ .none)
    (s : Started f₀ σ) : Ordered f₀ [] σ where
  aligned := by
    have incoming : σ.incoming = [] := by simp [System.incoming, s.mailbox, s.stdout]
    exact Quiet.aligned ⟨s.stdin, s.idle, by rw [incoming]; rfl⟩ s.waits
  dest := s.dest
  calls pid call hc := absurd hc (by simp [s.mailbox])
  waits p hp := absurd hp (by simp [s.waits])
  stream := by simp [System.incoming, s.mailbox, s.stdout, inputs, serverLabels, mailData]
  account := by simp [s.queue, serverLabels]
  framing hu _ := ⟨_, by rw [s.framer]; exact Framer.removeFraming_nil hf hu⟩

/-- A message without received bytes has come. -/
theorem Ordered.arrived {f₀ : Framer β} {h : List (Label β)} {σ σ' : System β}
    (R : Ordered f₀ h σ) {m : Msg β} (aligned : Aligned σ')
    (state : σ'.server.state = σ.server.state) (pending : σ'.server.pending = σ.server.pending)
    (mailbox : σ'.server.mailbox = σ.server.mailbox ++ [m])
    (incoming : mailData σ'.incoming = mailData σ.incoming)
    (call : ∀ pid call, m = .call pid call → call.keepsFramer = true) :
    Ordered f₀ (h ++ [.server (.arrived m)]) σ' := by
  have labels : serverLabels (h ++ [.server (.arrived m)]) = serverLabels h ++ [.arrived m] := by
    simp [serverLabels, Label.server?]
  refine ⟨aligned, by rw [state]; exact R.dest, ?_, by rw [pending]; exact R.waits, ?_, ?_, ?_⟩
  · intro pid c hc
    rw [mailbox, List.mem_append, List.mem_singleton] at hc
    rcases hc with hc | hc
    · exact R.calls pid c hc
    · exact call pid c hc.symm
  · rw [labels, inputs_append, R.stream, incoming, fed_append]
    simp [inputs, Label.fed]
  · rw [labels, state, delivered_append, framed_append]
    simpa [Server.Label.delivered, Server.Label.framed] using R.account
  · intro hu hno
    rw [labels] at hno
    obtain ⟨rc, hrc⟩ := R.framing hu fun tref framer timeout hmem =>
      hno tref framer timeout (List.mem_append_left _ hmem)
    refine ⟨rc, ?_⟩
    rw [labels, state, fed_append, framed_append]
    simpa [Server.Label.fed, Server.Label.framed] using hrc

/-- **A turn in turn** keeps the order. -/
theorem Ordered.turn {f₀ : Framer β} (hf : f₀.framing ≠ .none) {h : List (Label β)}
    {σ σ' : System β} (R : Ordered f₀ h σ) {taken : Taken β} {rest : List (Msg β)} {ran : Ran β}
    (hnext : Server.next σ.server = some (taken, rest))
    (goes : Turn σ.server.state σ.server.timers taken ran) (aligned : Aligned σ')
    (hσ' : σ' = { σ with
      server := ⟨ran.state, ran.timers, ran.pending, rest⟩
      stdin := σ.stdin ++ asked ran.out })
    (overtakes : ¬ overtakes σ.server.state taken) (jumps : ¬ jumps σ.server.mailbox taken) :
    Ordered f₀ (h ++ ran.out.map .server) σ' := by
  obtain ⟨before, m, after, hm, rfl, hno, -, -, -, htaken⟩ := R.aligned.next hnext
  have hresponse : ∀ p r, taken = .response p r → σ.server.pending = some p ∧
      Coherent σ.server.state p ∧
      (r.bytes ≠ [] → ∃ timeout callTime, p.cont = .reading timeout callTime) := by
    intro p r heq
    subst heq
    exact R.aligned.response hnext
  have hkeeps : taken.KeepsFramer := by
    rcases htaken with ⟨rfl, -⟩ | ⟨p, r, rfl, -⟩
    · cases m with
      | call pid call => exact R.calls pid call (by simp [hm])
      | _ => trivial
    · exact R.waits p (hresponse p r rfl).1
  have hfed := goes.fed_eq fun p r heq => (hresponse p r heq).2.2
  -- what is taken is in front of all received bytes in the mailbox
  have hfront : mailData before ++ m.bytes = taken.bytes ++ mailData before := by
    rcases htaken with ⟨rfl, rfl⟩ | ⟨p, r, rfl, rfl⟩
    · simp [mailData, Taken.bytes]
    · have hahead : ahead σ.server.mailbox = before := by rw [hm, ahead_eq hno]
      rw [Server.jumps, hahead, not_and_or, not_not, not_not] at jumps
      rcases jumps with hr | hb
      · simp [Taken.bytes, Msg.bytes, hr]
      · simp [Taken.bytes, Msg.bytes, hb]
  subst hσ'
  refine ⟨aligned, goes.dest R.dest, ?_, goes.keepsFramer hkeeps, ?_, ?_, ?_⟩
  · intro pid c hc
    refine R.calls pid c ?_
    rw [hm]
    rcases List.mem_append.mp hc with hc | hc
    · exact List.mem_append_left _ hc
    · exact List.mem_append_right _ (List.mem_cons_of_mem _ hc)
  · have incoming : mailData σ.incoming =
        mailData before ++ m.bytes ++ mailData (after ++ σ.stdout.map msg) := by
      rw [System.incoming, hm, List.append_assoc, mailData_append, List.append_assoc]
      rfl
    rw [inputs_append, inputs_map, List.append_nil, R.stream, incoming, hfront,
      serverLabels_append, serverLabels_map, fed_append, hfed]
    simp [System.incoming]
  · have accounts := goes.accounts (fun p r heq => (hresponse p r heq).2.1)
      (fun p r heq => (R.waits p (hresponse p r heq).1).1) R.dest overtakes
    rw [serverLabels_append, serverLabels_map, delivered_append, framed_append, ← R.account,
      List.append_assoc, List.append_assoc, accounts]
  · intro hu hno
    rw [serverLabels_append, serverLabels_map] at hno ⊢
    obtain ⟨rc, hrc⟩ := R.framing hu fun tref framer timeout hmem =>
      hno tref framer timeout (List.mem_append_left _ hmem)
    have untouched : ¬ touchesFramer taken := by
      intro ht
      obtain ⟨tref, rfl⟩ := hkeeps.timeout ht
      cases goes with
      | timedOut => exact hno tref _ _ (List.mem_append_right _ List.mem_cons_self)
    rw [fed_append, framed_append]
    rcases goes.feeds (fun p r heq => (hresponse p r heq).2.1) untouched with
      ⟨hfed, hframed, hsame⟩ | ⟨rc', hrc'⟩
    · rw [hfed, hframed, hsame, List.append_nil, List.append_nil]
      exact ⟨rc, hrc⟩
    · exact ⟨rc', Framer.removeFraming_append hf hrc hrc'⟩

/-- The C program has run: what it read is on its way. -/
theorem Ordered.ran {f₀ : Framer β} {h : List (Label β)} {σ σ' : System β} (R : Ordered f₀ h σ)
    {q : Program β} {stdin : List Command} {out : List (Label β)} (aligned : Aligned σ')
    (hσ' : σ' = { σ with
      program := { q with out := [] }, stdin := stdin, stdout := σ.stdout ++ q.out })
    (read : inputs out = q.data) (labels : serverLabels out = []) : Ordered f₀ (h ++ out) σ' := by
  subst hσ'
  refine ⟨aligned, R.dest, R.calls, R.waits, ?_, ?_, ?_⟩
  · show _ = _ ++ mailData (σ.server.mailbox ++ (σ.stdout ++ q.out).map msg)
    rw [mailData_wrote, inputs_append, R.stream, read, serverLabels_append, labels,
      List.append_nil, List.append_assoc]
  · rw [serverLabels_append, labels, List.append_nil]
    exact R.account
  · rw [serverLabels_append, labels, List.append_nil]
    exact R.framing

/-- **A step keeps the order.** -/
theorem step_ordered {f₀ : Framer β} (hf : f₀.framing ≠ .none) {h : List (Label β)}
    {σ σ' : System β} {e : Event β} {out : List (Label β)} (R : Ordered f₀ h σ)
    (keeps : e.keepsFramer = true) (inTurn : InTurn σ e) (took : step σ e = some (σ', out)) :
    Ordered f₀ (h ++ out) σ' := by
  have aligned := step_aligned R.aligned took
  cases step_cases took with
  | call fromPid c =>
    refine R.arrived aligned rfl rfl rfl (mailData_insert _ _ rfl) fun pid c' heq => ?_
    obtain ⟨-, rfl⟩ := Msg.call.inj heq
    exact keeps
  | expire live => exact R.arrived aligned rfl rfl rfl (mailData_insert _ _ rfl) (by simp)
  | deliver stdout =>
    refine R.arrived aligned rfl rfl rfl (congrArg mailData (incoming_deliver stdout)) ?_
    intro pid c heq
    exact absurd heq (by cases ‹Out β› <;> simp [msg])
  | turn hnext goes =>
    rw [InTurn, hnext] at inTurn
    exact R.turn hf hnext goes aligned rfl inTurn.1 inTurn.2
  | request stdin handled =>
    refine R.ran aligned rfl ?_ rfl
    rw [Program.handle_data handled]
    simp [inputs]
  | process handled =>
    refine R.ran aligned rfl ?_ rfl
    rw [Program.handle_data handled]
    simp [inputs]

/-- **No loss and no reordering.** In every run in turn that keeps the line framer, what was
read from the device is what was fed to the framer and then what is on its way, and what was
framed is what was delivered and then what is queued, each in its order; and unless a framing
timeout took bytes out, what was framed is the framing of all that was fed. -/
theorem ordered_of_reach {line : Line.State β} {σ₀ σ : System β} {h : List (Label β)}
    (start : Started (.line line) σ₀)
    (r : Reach step (fun _ σ e => e.keepsFramer = true ∧ InTurn σ e) σ₀ h σ) :
    inputs h = fed (serverLabels h) ++ mailData σ.incoming ∧
      framed (serverLabels h) =
        delivered (serverLabels h) ++ σ.server.state.queuedMessages ∧
      (line.Ok → (∀ tref framer timeout, .timedOut tref framer timeout ∉ serverLabels h) →
        ∃ rc line', Line.removeFraming (fed (serverLabels h)) line =
          some (rc, framed (serverLabels h), line') ∧
          σ.server.state.framer = .line line') := by
  have hf : (Framer.line line).framing ≠ .none := by simp [Framer.framing]
  have keep : ∀ (h : List (Label β)) σ e σ' out, Ordered (.line line) h σ →
      e.keepsFramer = true ∧ InTurn σ e → step σ e = some (σ', out) →
        Ordered (.line line) (h ++ out) σ' :=
    fun _ _ _ _ _ R guard took => step_ordered hf R guard.1 guard.2 took
  have R := Reach.invariant (ordered_init hf start) keep r
  refine ⟨R.stream, R.account.symm, fun ok hno => ?_⟩
  obtain ⟨rc, hrc⟩ := R.framing ok hno
  simp only [Framer.removeFraming] at hrc
  split at hrc
  · next rc' ms line' hline =>
    simp only [Option.some.injEq, Prod.mk.injEq] at hrc
    obtain ⟨rfl, rfl, hframer⟩ := hrc
    exact ⟨rc', line', hline, hframer.symm⟩
  · exact absurd hrc (by simp)

/-- A port that has been opened with the line framer and its defaults. -/
def opened (active : Bool) : System UInt8 where
  server := openedLine active
  program := { uart := { fd := some 3, activeModeEnabled := active } }

theorem started_opened (active : Bool) : Started (.line (Line.init {})) (opened active) :=
  ⟨rfl, rfl, by simp [opened, openedLine], rfl, rfl, rfl, rfl, rfl⟩

/-- A call that goes to the C program, up to its reply. -/
def calls (call : Server.Call) (reads : List UInt8) : List (Event UInt8) :=
  [.call 0 call, .turn 0 0, .request { reads := [.ok reads] }, .deliver, .turn 0 0]

/-- Bytes are received in active mode. -/
def notifies (bytes : List UInt8) : List (Event UInt8) :=
  [.process { reads := [.ok bytes] }, .deliver, .turn 0 0]

/-- A line in active mode, two in one read after a switch to passive mode, and the second of
them read from the queue. -/
def activeThenPassive : List (Event UInt8) :=
  notifies [65, 10] ++ calls (.configure [.active false]) [] ++
    calls (.read 100) [66, 10, 67, 10] ++ [.call 0 (.read 100), .turn 0 0]

theorem ordered_of_reach_activeThenPassive :
    ∃ r, exec step (opened true) activeThenPassive = some r ∧
      inputs r.2 = [65, 10, 66, 10, 67, 10] ∧
      delivered (serverLabels r.2) = [.whole [65], .whole [66], .whole [67]] ∧
      framed (serverLabels r.2) =
        delivered (serverLabels r.2) ++ r.1.server.state.queuedMessages := by
  have inTurn : permitted step (fun σ e => decide (e.keepsFramer = true ∧ InTurn σ e))
      (opened true) activeThenPassive = true := by decide
  cases ran : exec step (opened true) activeThenPassive with
  | none => exact absurd ran (by decide)
  | some r =>
    have reach := (Reach.of_permitted .start inTurn ran).weaken fun _ _ _ => of_decide_eq_true
    refine ⟨r, rfl, ?_, ?_, (ordered_of_reach (started_opened true) reach).2.1⟩
    · obtain rfl := Option.some.inj (ran.symm.trans rfl)
      rfl
    · obtain rfl := Option.some.inj (ran.symm.trans rfl)
      rfl

/-- One of two lines is queued when the port is switched to active mode, and a third line is
sent past it. -/
def queuedThenActive : List (Event UInt8) :=
  calls (.read 100) [65, 10, 66, 10] ++ calls (.configure [.active true]) [] ++ notifies [67, 10]

/-- A read waits behind a switch to passive mode, and a notification behind the read. -/
def notifiedBehindRead : List (Event UInt8) :=
  [.call 0 (.configure [.active false]), .call 1 (.read 100), .turn 0 0,
    .process { reads := [.ok [65]] }, .request {}, .deliver, .deliver, .turn 0 0, .turn 0 0,
    .request { reads := [.ok [66]] }, .deliver, .turn 0 0]

/-- Messages are delivered, and bytes fed to the framer, out of their order. -/
theorem not_ordered :
    (¬ ∀ h σ, Reach step (fun _ _ e => e.keepsFramer = true) (opened false) h σ →
      framed (serverLabels h) = delivered (serverLabels h) ++ σ.server.state.queuedMessages) ∧
    ¬ ∀ h σ, Reach step (fun _ _ e => e.keepsFramer = true) (opened true) h σ →
      inputs h = fed (serverLabels h) ++ mailData σ.incoming := by
  constructor
  · intro all
    have keeps : permitted step (fun _ e => e.keepsFramer) (opened false) queuedThenActive = true :=
      rfl
    have reach := Reach.of_permitted .start keeps (rfl : exec step _ _ = some (_, _))
    exact absurd (all _ _ reach) (by decide)
  · intro all
    have keeps : permitted step (fun _ e => e.keepsFramer) (opened true) notifiedBehindRead = true :=
      rfl
    have reach := Reach.of_permitted .start keeps (rfl : exec step _ _ = some (_, _))
    exact absurd (all _ _ reach) (by decide)

end System

end CircuitsUart
