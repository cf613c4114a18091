import CircuitsUart.Port.Received
import CircuitsUart.Server.Ledger

/-!
# The two processes together

A `Circuits.UART` process and its C program, joined by two pipes: the commands `call_port/4`
sent that have not been read, and the messages the C program wrote that have not been
delivered. Calls, timers, turns of the server, events of the C program and deliveries come
in any order.

`Aligned` is what the protocol keeps: at most one request is about, as a command, as an
operation pending in the C program or as a response, and exactly while a callback waits for
it.

A step of the whole is a step of one of the parts, with what that part sends put into a pipe.
`Step` has a constructor for each, and the modules that follow prove their invariants by cases on
it, never by unfolding `step`. What the parts are known to do is used through their own lemmas:
`Server.Turn` for the one, the theorems of `Port` for the other.

Commands and messages travel as such. `System.Wired` has the bytes, and shows that nothing in the
histories depends on them.
-/

set_option autoImplicit false

namespace CircuitsUart

open Lib Port Server

/-- The process, the C program and the pipes between them. -/
structure System (β : Type) where
  server : Server β := {}
  program : Program β := {}
  stdin : List Command := []
  stdout : List (Out β) := []

/-! ## Requests and the callbacks that wait for them -/

namespace Server

variable {β : Type}

/-- The commands sent. -/
def asked (h : List (Label β)) : List Command :=
  h.filterMap fun
    | .asked command => some command
    | _ => none

@[simp] theorem asked_append (a b : List (Label β)) : asked (a ++ b) = asked a ++ asked b := by
  simp [asked]

theorem asked_reportMessages (s : State β) (notices : List (Notice β)) :
    asked (reportMessages s notices) = [] := by
  refine List.filterMap_eq_nil_iff.mpr fun l hl => ?_
  obtain ⟨dest, id, notice, -, rfl⟩ := mem_reportMessages hl
  rfl

/-- What a callback waits with is for the command it sent. -/
def Pending.Fits (p : Pending β) : Prop :=
  match p.command with
  | .open name opts => p.cont = .opening name opts
  | .close => p.cont = .closing
  | .read timeout => ∃ callTime, p.cont = .reading timeout callTime
  | _ => (∀ name opts, p.cont ≠ .opening name opts) ∧ p.cont ≠ .closing ∧
    ∀ timeout callTime, p.cont ≠ .reading timeout callTime

theorem Asks.fits {s : State β} {clock : Int} {call : Call} {command : Command} {cont : Cont β}
    (h : Asks s clock call command cont) (pid : Pid) : (⟨pid, command, cont⟩ : Pending β).Fits := by
  cases h with
  | «open» | close => rfl
  | read => exact ⟨clock, rfl⟩
  | _ => exact ⟨by simp, by simp, by simp⟩

theorem handleRead_asks (s : State β) (timers : Timers) (pid : Pid) (timeout : Nat) (clock : Int)
    (out : List (Label β)) (quiet : asked out = []) :
    asked (handleRead s timers pid timeout clock out).out =
        ((handleRead s timers pid timeout clock out).pending.map (·.command)).toList ∧
      ∀ p, (handleRead s timers pid timeout clock out).pending = some p → p.Fits := by
  unfold handleRead
  split
  · refine ⟨?_, fun p hp => absurd hp (by simp [replyWith])⟩
    rw [replyWith, asked_append, quiet]
    rfl
  · refine ⟨?_, fun p hp => ?_⟩
    · rw [callPort, asked_append, quiet]
      rfl
    · obtain rfl := Option.some.inj hp
      exact ⟨clock, rfl⟩

variable [Octet β]

/-- **A turn sends a command exactly when it ends waiting**, and waits for that command. -/
theorem Turn.asks {s : State β} {timers : Timers} {taken : Taken β} {ran : Ran β}
    (h : Turn s timers taken ran) :
    asked ran.out = (ran.pending.map (·.command)).toList ∧
      ∀ p, ran.pending = some p → p.Fits := by
  cases h with
  | ask asks =>
    refine ⟨rfl, fun p hp => ?_⟩
    obtain rfl := Option.some.inj hp
    exact asks.fits _
  | configure | flush =>
    refine ⟨?_, fun p hp => ?_⟩
    · simp only [handleConfigure, handleFlush, callPort, reframed]
      split <;> rfl
    · obtain rfl := Option.some.inj hp
      exact ⟨by simp, by simp, by simp⟩
  | readMore => exact handleRead_asks _ _ _ _ _ _ rfl
  | notified => exact ⟨asked_reportMessages _ _, fun p hp => absurd hp (by simp)⟩
  | failed => exact ⟨asked_reportMessages _ _, fun p hp => absurd hp (by simp)⟩
  | timedOut =>
    refine ⟨?_, fun p hp => absurd hp (by simp [handleTimedOut])⟩
    simp only [handleTimedOut, notifyTimedoutMessages]
    split
    · exact asked_reportMessages _ _
    · rfl
    · rfl
  | opened =>
    refine ⟨?_, fun p hp => absurd hp (by simp [resumeOpening, replyWith])⟩
    simp only [resumeOpening, replyWith, reframed]
    split <;> rfl
  | closed => exact ⟨rfl, fun p hp => absurd hp (by simp [resumeClosing, replyWith])⟩
  | _ => exact ⟨rfl, fun p hp => absurd hp (by simp [replyWith])⟩

end Server

/-! ## Steps -/

namespace System

variable {β : Type}

/-- What happens to the two processes. -/
inductive Event (β : Type)
  | call (fromPid : Pid) (call : Server.Call)
  | expire (tref : Tref)
  | turn (now clock : Int)
  | request (os : Os β)
  | process (os : Os β)
  | deliver

inductive Label (β : Type)
  | server (l : Server.Label β)
  | dispatched (command : Command)
  /-- what the C program read from the device -/
  | input (data : List β)

/-- A message of the C program, as the port delivers it. -/
def msg : Out β → Msg β
  | .response r => .resp r
  | .notif n => .notif n

/-- What is on its way to the server. -/
def incoming (σ : System β) : List (Msg β) := σ.server.mailbox ++ σ.stdout.map msg

/-- The C program handles an event. -/
def portStep (σ : System β) (e : Program.Event β) : Option (System β × List (Label β)) :=
  match σ.program.handle e with
  | .error _ => none
  | .ok q =>
    some ({ σ with program := { q with out := [] }, stdout := σ.stdout ++ q.out },
      [.input (σ.program.input e)])

variable [Octet β]

/-- The server takes a step, and what it asks is sent. -/
def serverStep (σ : System β) (e : Server.Event β) : Option (System β × List (Label β)) :=
  match Server.step σ.server e with
  | none => none
  | some (server, out) =>
    some ({ σ with server := server, stdin := σ.stdin ++ asked out }, out.map .server)

/-- One step of the two. -/
def step (σ : System β) : Event β → Option (System β × List (Label β))
  | .call fromPid call => serverStep σ (.arrive (.call fromPid call))
  | .expire tref => serverStep σ (.expire tref)
  | .turn now clock => serverStep σ (.turn now clock)
  | .deliver =>
    match σ.stdout with
    | [] => none
    | o :: rest => serverStep { σ with stdout := rest } (.arrive (msg o))
  | .request os =>
    match σ.stdin with
    | [] => none
    | command :: rest =>
      match portStep { σ with stdin := rest } (.request os command) with
      | none => none
      | some (σ', out) => some (σ', .dispatched command :: out)
  | .process os => portStep σ (.process os)

/-- How a step goes. -/
inductive Step (σ : System β) : Event β → System β → List (Label β) → Prop
  | call (fromPid : Pid) (call : Server.Call) :
      Step σ (.call fromPid call)
        { σ with server := { σ.server with mailbox := σ.server.mailbox ++ [.call fromPid call] } }
        [.server (.arrived (.call fromPid call))]
  | expire {tref : Tref} (live : tref ∈ σ.server.timers.live) :
      Step σ (.expire tref)
        { σ with server := { σ.server with
            timers := σ.server.timers.cancel tref
            mailbox := σ.server.mailbox ++ [.rxFramingTimedOut tref] } }
        [.server (.arrived (.rxFramingTimedOut tref))]
  | turn {now clock : Int} {taken : Taken β} {rest : List (Msg β)} {ran : Ran β}
      (next : Server.next σ.server = some (taken, rest))
      (goes : Turn σ.server.state σ.server.timers taken ran) :
      Step σ (.turn now clock)
        { σ with
          server := ⟨ran.state, ran.timers, ran.pending, rest⟩
          stdin := σ.stdin ++ asked ran.out }
        (ran.out.map .server)
  | request {os : Os β} {command : Command} {rest : List Command} {q : Program β}
      (stdin : σ.stdin = command :: rest)
      (handled : σ.program.handle (.request os command) = .ok q) :
      Step σ (.request os)
        { σ with program := { q with out := [] }, stdin := rest, stdout := σ.stdout ++ q.out }
        [.dispatched command, .input (σ.program.input (.request os command))]
  | process {os : Os β} {q : Program β} (handled : σ.program.handle (.process os) = .ok q) :
      Step σ (.process os)
        { σ with program := { q with out := [] }, stdout := σ.stdout ++ q.out }
        [.input (σ.program.input (.process os))]
  | deliver {o : Out β} {rest : List (Out β)} (stdout : σ.stdout = o :: rest) :
      Step σ .deliver
        { σ with
          server := { σ.server with mailbox := σ.server.mailbox ++ [msg o] }
          stdout := rest }
        [.server (.arrived (msg o))]

omit [Octet β] in
theorem portStep_eq_some {σ σ' : System β} {e : Program.Event β} {out : List (Label β)}
    (h : portStep σ e = some (σ', out)) :
    ∃ q, σ.program.handle e = .ok q ∧ out = [.input (σ.program.input e)] ∧
      σ' = { σ with program := { q with out := [] }, stdout := σ.stdout ++ q.out } := by
  unfold portStep at h
  split at h
  · exact absurd h (by simp)
  · next q hq =>
    obtain ⟨rfl, rfl⟩ := Prod.mk.inj (Option.some.inj h)
    exact ⟨q, hq, rfl, rfl⟩

/-- **What a step does.** -/
theorem step_cases {σ σ' : System β} {e : Event β} {out : List (Label β)}
    (h : step σ e = some (σ', out)) : Step σ e σ' out := by
  cases e with
  | call fromPid call =>
    obtain ⟨rfl, rfl⟩ := Prod.mk.inj (Option.some.inj h)
    simpa [asked] using Step.call fromPid call
  | expire tref =>
    simp only [step, serverStep, Server.step] at h
    split at h
    · exact absurd h (by simp)
    · next server out' hs =>
      split at hs
      · next live =>
        obtain ⟨rfl, rfl⟩ := Prod.mk.inj (Option.some.inj hs)
        obtain ⟨rfl, rfl⟩ := Prod.mk.inj (Option.some.inj h)
        simpa [asked] using Step.expire live
      · exact absurd hs (by simp)
  | turn now clock =>
    simp only [step, serverStep] at h
    split at h
    · exact absurd h (by simp)
    · next server out' hs =>
      obtain ⟨rfl, rfl⟩ := Prod.mk.inj (Option.some.inj h)
      rcases Server.step_cases hs with ⟨m, he, -⟩ | ⟨t, he, -⟩ |
        ⟨now', clock', taken, rest, ran, -, hnext, hrun, rfl, rfl⟩
      · exact absurd he (by simp)
      · exact absurd he (by simp)
      · exact .turn hnext (turn_of_run hrun)
  | request os =>
    simp only [step] at h
    split at h
    · exact absurd h (by simp)
    · next command rest hstdin =>
      split at h
      · exact absurd h (by simp)
      · next σ₁ out₁ hp =>
        obtain ⟨rfl, rfl⟩ := Prod.mk.inj (Option.some.inj h)
        obtain ⟨q, hq, rfl, rfl⟩ := portStep_eq_some hp
        exact .request hstdin hq
  | process os =>
    obtain ⟨q, hq, rfl, rfl⟩ := portStep_eq_some h
    exact .process hq
  | deliver =>
    simp only [step] at h
    split at h
    · exact absurd h (by simp)
    · next o rest hstdout =>
      cases o with
      | response r | notif r =>
        obtain ⟨rfl, rfl⟩ := Prod.mk.inj (Option.some.inj h)
        simpa [asked] using Step.deliver hstdout

/-! ## One request at a time -/

omit [Octet β] in
theorem responses_map_msg (out : List (Out β)) :
    (responses (out.map msg)).length = out.countP Program.isResponse := by
  induction out with
  | nil => rfl
  | cons o out ih =>
    cases o <;> simp [responses, msg, ih, List.countP_cons, Program.isResponse]

omit [Octet β] in
theorem mem_responses_map_msg {out : List (Out β)} {r : Response β} :
    r ∈ responses (out.map msg) ↔ .response r ∈ out := by
  induction out with
  | nil => simp [responses]
  | cons o out ih => cases o <;> simp [responses, msg, ih]

omit [Octet β] in
theorem mailData_map_msg (out : List (Out β)) :
    mailData (out.map msg) = out.flatMap Out.bytes := by
  rw [mailData, List.flatMap_map]
  congr 1
  funext o
  cases o <;> rfl

omit [Octet β] in
/-- What is on its way once the C program has written. -/
theorem incoming_wrote (σ : System β) (out : List (Out β)) :
    σ.server.mailbox ++ (σ.stdout ++ out).map msg = σ.incoming ++ out.map msg := by
  rw [incoming, List.map_append, List.append_assoc]

omit [Octet β] in
theorem mailData_wrote (σ : System β) (q : Program β) :
    mailData (σ.server.mailbox ++ (σ.stdout ++ q.out).map msg) =
      mailData σ.incoming ++ q.data := by
  rw [incoming_wrote, mailData_append, mailData_map_msg]
  rfl

/-- At most one request is about, and a callback waits exactly while one is. -/
structure Aligned (σ : System β) : Prop where
  sound : Program.Sound σ.program
  coherent : PendingOk σ.server
  fits : ∀ p, σ.server.pending = some p → p.Fits
  stdin : ∀ command ∈ σ.stdin, ∃ p, σ.server.pending = some p ∧ p.command = command
  count : σ.stdin.length + σ.program.pending.toNat + (responses σ.incoming).length =
    σ.server.pending.isSome.toNat
  reading : σ.program.uart.readPending = true ∨ (∃ r ∈ responses σ.incoming, r.bytes ≠ []) →
    ∃ p timeout callTime, σ.server.pending = some p ∧ p.cont = .reading timeout callTime

/-- Nothing is about, and nobody waits. -/
structure Quiet (σ : System β) : Prop where
  stdin : σ.stdin = []
  idle : σ.program.pending = false
  responses : responses σ.incoming = []

omit [Octet β] in
theorem Aligned.quiet {σ : System β} (A : Aligned σ) (idle : σ.server.pending = none) :
    Quiet σ := by
  have count := A.count
  rw [idle] at count
  simp only [Option.isSome_none, Bool.toNat_false, Nat.add_eq_zero_iff,
    List.length_eq_zero_iff, Bool.toNat_eq_zero] at count
  exact ⟨count.1.1, count.1.2, count.2⟩

omit [Octet β] in
/-- With a response about, that is all there is. -/
theorem Aligned.answered {σ : System β} (A : Aligned σ) {r : Response β}
    (hr : r ∈ responses σ.incoming) :
    σ.stdin = [] ∧ σ.program.pending = false ∧ responses σ.incoming = [r] := by
  have count := A.count
  have pos : 0 < (responses σ.incoming).length := List.length_pos_of_mem hr
  have one : σ.server.pending.isSome.toNat ≤ 1 := Bool.toNat_le _
  have idle : σ.program.pending.toNat = 0 := by omega
  refine ⟨List.length_eq_zero_iff.mp (by omega), by simpa using idle, ?_⟩
  obtain ⟨r', hr'⟩ := List.length_eq_one_iff.mp (by omega : (responses σ.incoming).length = 1)
  rw [hr'] at hr ⊢
  rw [List.mem_singleton.mp hr]

omit [Octet β] in
/-- With a command on its way, that is all there is, and it is the one that is waited for. -/
theorem Aligned.asked {σ : System β} (A : Aligned σ) {command : Command} {rest : List Command}
    (h : σ.stdin = command :: rest) :
    rest = [] ∧ σ.program.pending = false ∧ responses σ.incoming = [] ∧
      ∃ p, σ.server.pending = some p ∧ p.command = command := by
  obtain ⟨p, hp, hcommand⟩ := A.stdin command (by simp [h])
  have count := A.count
  rw [h, hp, List.length_cons, Option.isSome_some, Bool.toNat_true] at count
  have idle : σ.program.pending.toNat = 0 := by omega
  refine ⟨List.length_eq_zero_iff.mp (by omega), by simpa using idle,
    List.length_eq_zero_iff.mp (by omega), p, hp, hcommand⟩

omit [Octet β] in
/-- What the next turn takes: a message while all is quiet, or the one response. -/
theorem Aligned.next {σ : System β} (A : Aligned σ) {taken : Taken β} {rest : List (Msg β)}
    (h : Server.next σ.server = some (taken, rest)) :
    ∃ before m after, σ.server.mailbox = before ++ m :: after ∧ rest = before ++ after ∧
      (∀ r, .resp r ∉ before) ∧ σ.stdin = [] ∧ σ.program.pending = false ∧
      responses (rest ++ σ.stdout.map msg) = [] ∧
      ((taken = .message m ∧ before = []) ∨ ∃ p r, taken = .response p r ∧ m = .resp r) := by
  rcases next_eq_some h with ⟨m, rfl, hidle, hm⟩ | ⟨p, r, before, after, rfl, hpend, hm, rfl, hno⟩
  · have quiet := A.quiet hidle
    have none := quiet.responses
    rw [incoming, hm] at none
    refine ⟨[], m, rest, hm, rfl, by simp, quiet.stdin, quiet.idle, ?_, .inl ⟨rfl, rfl⟩⟩
    cases m with
    | resp r => exact absurd none (by simp [responses])
    | _ => exact none
  · have mem : r ∈ responses σ.incoming := by
      rw [incoming, hm, responses_append, responses_append]
      simp [responses]
    obtain ⟨hstdin, hidle, one⟩ := A.answered mem
    refine ⟨before, .resp r, after, hm, rfl, hno, hstdin, hidle, ?_, .inr ⟨p, r, rfl, rfl⟩⟩
    have count := congrArg List.length one
    apply List.length_eq_zero_iff.mp
    simp only [incoming, hm, responses_append, responses, List.length_append,
      List.length_cons, List.length_nil] at count ⊢
    omega

omit [Octet β] in
/-- With nothing about and nobody waiting the two are aligned. -/
theorem Quiet.aligned {σ : System β} (quiet : Quiet σ) (idle : σ.server.pending = none) :
    Aligned σ := by
  have nobody : ∀ p, σ.server.pending ≠ some p := fun p hp => absurd (idle.symm.trans hp) (by simp)
  refine ⟨.of_idle quiet.idle, fun p hp => absurd hp (nobody p), fun p hp => absurd hp (nobody p),
    fun c hc => ?_, ?_, ?_⟩
  · rw [quiet.stdin] at hc
    exact absurd hc (by simp)
  · rw [quiet.stdin, quiet.idle, quiet.responses, idle]
    rfl
  · rintro (hread | ⟨r, hr, -⟩)
    · exact absurd (hread.symm.trans (Program.pending_eq_false.mp quiet.idle).2) (by simp)
    · rw [quiet.responses] at hr
      exact absurd hr (by simp)

omit [Octet β] in
/-- A response that is taken was about. -/
theorem mem_responses_of_next {σ : System β} {p : Pending β} {r : Response β}
    {rest : List (Msg β)} (h : Server.next σ.server = some (.response p r, rest)) :
    σ.server.pending = some p ∧ r ∈ responses σ.incoming := by
  rcases next_eq_some h with ⟨m, heq, -⟩ | ⟨p', r', before, after, heq, hp, hm, -⟩
  · exact absurd heq (by simp)
  · obtain ⟨rfl, rfl⟩ := Taken.response.inj heq
    refine ⟨hp, ?_⟩
    rw [incoming, hm, responses_append, responses_append]
    simp [responses]

omit [Octet β] in
/-- A response that is taken is for the callback that waits, and agrees with the state. -/
theorem Aligned.response {σ : System β} (A : Aligned σ) {p : Pending β} {r : Response β}
    {rest : List (Msg β)} (h : Server.next σ.server = some (.response p r, rest)) :
    σ.server.pending = some p ∧ Coherent σ.server.state p ∧
      (r.bytes ≠ [] → ∃ timeout callTime, p.cont = .reading timeout callTime) := by
  obtain ⟨hp, mem⟩ := mem_responses_of_next h
  refine ⟨hp, A.coherent p hp, fun hb => ?_⟩
  obtain ⟨p', timeout, callTime, hp', hcont⟩ := A.reading (.inr ⟨r, mem, hb⟩)
  obtain rfl : p = p' := Option.some.inj (hp.symm.trans hp')
  exact ⟨timeout, callTime, hcont⟩

omit [Octet β] in
/-- A message that is no response. -/
theorem responses_arrived {σ : System β} {m : Msg β} (other : ∀ r, m ≠ .resp r) :
    responses ((σ.server.mailbox ++ [m]) ++ σ.stdout.map msg) = responses σ.incoming := by
  have none : responses [m] = [] :=
    responses_eq_nil fun r hr => other r (List.mem_singleton.mp hr).symm
  rw [incoming, responses_append, responses_append, responses_append, none, List.append_nil]

omit [Octet β] in
/-- Another message about, no response. -/
theorem Aligned.arrived {σ : System β} (A : Aligned σ) {m : Msg β} (timers : Timers)
    (other : ∀ r, m ≠ .resp r) :
    Aligned { σ with server := { σ.server with
      timers := timers, mailbox := σ.server.mailbox ++ [m] } } := by
  have same := responses_arrived (σ := σ) other
  refine ⟨A.sound, A.coherent, A.fits, A.stdin, ?_, ?_⟩
  · rw [← A.count, ← same]
    rfl
  · intro h
    apply A.reading
    rw [← same]
    exact h

omit [Octet β] in
theorem incoming_deliver {σ : System β} {o : Out β} {rest : List (Out β)}
    (h : σ.stdout = o :: rest) :
    (σ.server.mailbox ++ [msg o]) ++ rest.map msg = σ.incoming := by
  rw [incoming, h, List.map_cons, List.append_assoc, List.singleton_append]

omit [Octet β] in
/-- The C program has run, and owes what was owed to it. -/
theorem Aligned.handled {σ : System β} (A : Aligned σ) {q : Program β} {stdin : List Command}
    (sound : Program.Sound q) (sub : ∀ command ∈ stdin, command ∈ σ.stdin)
    (owed : stdin.length + q.owed = σ.stdin.length + σ.program.pending.toNat)
    (reading : q.uart.readPending = true ∨ q.responded ≠ [] →
      ∃ p timeout callTime, σ.server.pending = some p ∧ p.cont = .reading timeout callTime) :
    Aligned { σ with
      program := { q with out := [] }, stdin := stdin, stdout := σ.stdout ++ q.out } := by
  refine ⟨⟨sound.one, sound.isOpen, sound.passive⟩, A.coherent, A.fits,
    fun command hc => A.stdin command (sub command hc), ?_, ?_⟩
  · show stdin.length + q.pending.toNat +
      (responses (σ.server.mailbox ++ (σ.stdout ++ q.out).map msg)).length = _
    rw [← A.count, incoming_wrote, responses_append, List.length_append, responses_map_msg]
    have : q.owed = q.out.countP Program.isResponse + q.pending.toNat := rfl
    omega
  · rintro (hread | ⟨r, hr, hb⟩)
    · exact reading (.inl hread)
    · change r ∈ responses (σ.server.mailbox ++ (σ.stdout ++ q.out).map msg) at hr
      rw [incoming_wrote, responses_append, List.mem_append] at hr
      rcases hr with hr | hr
      · exact A.reading (.inr ⟨r, hr, hb⟩)
      · refine reading (.inr fun none => hb ?_)
        exact List.flatMap_eq_nil_iff.mp none _ (mem_responses_map_msg.mp hr)

/-- **A step keeps the two aligned.** -/
theorem step_aligned {σ σ' : System β} {e : Event β} {out : List (Label β)} (A : Aligned σ)
    (h : step σ e = some (σ', out)) : Aligned σ' := by
  cases step_cases h with
  | call fromPid call => exact A.arrived σ.server.timers (by simp)
  | expire live => exact A.arrived _ (by simp)
  | @turn _ _ taken rest ran hnext goes =>
    obtain ⟨-, -, -, -, -, -, hstdin, idle, none, -⟩ := A.next hnext
    obtain ⟨asks, fits⟩ := goes.asks
    refine ⟨A.sound, goes.pendingOk, fits, ?_, ?_, ?_⟩
    · intro command hc
      rw [hstdin, List.nil_append, asks] at hc
      obtain ⟨p, hp, rfl⟩ := Option.map_eq_some_iff.mp (Option.mem_toList.mp hc)
      exact ⟨p, hp, rfl⟩
    · show (σ.stdin ++ asked ran.out).length + σ.program.pending.toNat +
        (responses (rest ++ σ.stdout.map msg)).length = _
      rw [none, idle, hstdin, List.nil_append, asks]
      cases ran.pending <;> rfl
    · rintro (hread | ⟨r, hr, -⟩)
      · exact absurd (hread.symm.trans (Program.pending_eq_false.mp idle).2) (by simp)
      · change r ∈ responses (rest ++ σ.stdout.map msg) at hr
        rw [none] at hr
        exact absurd hr (by simp)
  | @request os command rest q hstdin handled =>
    -- the one request about was this command, so nothing is pending in the C program
    obtain ⟨-, idle, -, p, hp, hcommand⟩ := A.asked hstdin
    obtain ⟨sound, owed⟩ := Program.handle_answered idle handled
    refine A.handled sound (fun c hc => by simp [hstdin, hc]) ?_ ?_
    · rw [owed, hstdin, idle]
      rfl
    · intro hread
      by_cases hcmd : ∃ timeout, command = .read timeout
      · obtain ⟨timeout, rfl⟩ := hcmd
        have fits := A.fits p hp
        rw [Pending.Fits, hcommand] at fits
        obtain ⟨callTime, hcont⟩ := fits
        exact ⟨p, timeout, callTime, hp, hcont⟩
      · have notRead := Program.handle_notRead handled
          (fun os' timeout heq => hcmd ⟨timeout, (Program.Event.request.inj heq).2⟩)
          (Program.pending_eq_false.mp idle).2
        rcases hread with hread | hread
        · exact absurd (hread.symm.trans notRead.1) (by simp)
        · exact absurd notRead.2 hread
  | @process os q handled =>
    have kept := Program.uartProcess_kept (p := σ.program.enter os)
      ⟨A.sound.one, A.sound.isOpen, A.sound.passive⟩ os
    rw [show (σ.program.enter os).uartProcess os = .ok q from handled] at kept
    obtain ⟨sound, owed⟩ := kept
    refine A.handled sound (fun c hc => hc) ?_ ?_
    · rw [owed]
      simp [Program.owed, Program.answers, Program.enter, Program.pending]
    · intro hread
      -- the loop begins no read, so data in a response answers one that was pending
      cases waiting : σ.program.uart.readPending with
      | true => exact A.reading (.inl waiting)
      | false =>
        have notRead := Program.handle_notRead handled (by simp) waiting
        rcases hread with hread | hread
        · exact absurd (hread.symm.trans notRead.1) (by simp)
        · exact absurd notRead.2 hread
  | deliver hstdout =>
    have same := incoming_deliver hstdout
    refine ⟨A.sound, A.coherent, A.fits, A.stdin, ?_, ?_⟩
    · rw [← A.count, ← same]
      rfl
    · intro h
      apply A.reading
      rw [← same]
      exact h

end System

end CircuitsUart
