import CircuitsUart.Port.Answers
import CircuitsUart.System.Order

/-!
# Every call gets its own reply

Calls of any number of processes come in any order, and the port answers when it can. Replies go
out in the order in which the calls came, one for each call, to the process that made it, and of
the kind that the callback for that call replies with.

## The kinds of replies

`Reply.ResultOf` is read off the code, and not off the typespecs, which agree with it but for one:
`signals/1` is specified to return a map or an error, and `handle_signals` sends `{:ok, map}`, which
the callback passes on. A read replies with a message, whole or in part, with `{:ok, <<>>}` or with
an error; `configuration` with the name and the options; `controlling_process` with `:ok`; and every
other call with `:ok` or an error.

## What is kept

Only the callback knows which call it serves. `Waits` says it of a callback that waits for the
port: what it sent and what it does next are those of its call. `Served` splits the calls that have
come into those that have had their reply, the one that is being served and those in the mailbox,
and a step moves a call from one of these to the next. That the response in the mailbox answers the
command of the call that waits is not the server's doing: the C program answers what it was asked
(`Program.Serving`), and at most one request is about (`Aligned`).
-/

set_option autoImplicit false

namespace CircuitsUart

open Lib Port Server

namespace Server

variable {β : Type}

/-! ## Calls and results -/

/-- The calls that have come, with who made them. -/
def called (h : List (Label β)) : List (Pid × Call) :=
  h.filterMap fun
    | .arrived (.call fromPid call) => some (fromPid, call)
    | _ => none

/-- The replies, with whom they went to. -/
def replies (h : List (Label β)) : List (Pid × Reply β) :=
  h.filterMap fun
    | .replied fromPid reply => some (fromPid, reply)
    | _ => none

/-- The calls that lie in a mailbox. -/
def mailCalls (mailbox : List (Msg β)) : List (Pid × Call) :=
  mailbox.filterMap fun
    | .call fromPid call => some (fromPid, call)
    | _ => none

@[simp] theorem called_append (a b : List (Label β)) : called (a ++ b) = called a ++ called b := by
  simp [called]

@[simp] theorem replies_append (a b : List (Label β)) :
    replies (a ++ b) = replies a ++ replies b := by
  simp [replies]

@[simp] theorem mailCalls_append (a b : List (Msg β)) :
    mailCalls (a ++ b) = mailCalls a ++ mailCalls b := by
  simp [mailCalls]

/-- The calls whose result is `:ok` when the port has done what they ask. -/
def Call.acknowledged : Call → Bool
  | .read _ | .signals | .configuration | .controllingProcess _ => false
  | _ => true

/-- The calls that ask the port for something it may refuse. -/
def Call.fallible : Call → Bool
  | .configuration | .controllingProcess _ => false
  | _ => true

/-- The results of a call: what its callback replies with. -/
def Reply.ResultOf : Reply β → Call → Prop
  | .ok, .controllingProcess _ => True
  | .configuration _ _ _ _ _ _, .configuration => True
  | .message _, .read _ => True
  | .readTimeout, .read _ => True
  | .port .ok, call => call.acknowledged = true
  | .port (.error _), call => call.fallible = true
  -- `{:ok, map}`, where the typespec has the map
  | .port (.signals _), .signals => True
  | _, _ => False

/-- A callback that serves `call` waits with `p`. A read may be at any of its polls. -/
inductive Waits : Call → Pending β → Prop
  | open (name : List UInt8) (opts : List UartOption) (fromPid : Pid) :
      Waits (.open name opts) ⟨fromPid, .open name opts, .opening name opts⟩
  | configuration (fromPid : Pid) : Waits .configuration ⟨fromPid, .configuration, .configuration⟩
  | close (fromPid : Pid) : Waits .close ⟨fromPid, .close, .closing⟩
  | read (timeout left : Nat) (callTime : Int) (fromPid : Pid) :
      Waits (.read timeout) ⟨fromPid, .read left, .reading left callTime⟩
  | write (data : List UInt8) (timeout : Nat) (framer : Framer β) (fromPid : Pid) :
      Waits (.write data timeout)
        ⟨fromPid, .write (framer.addFraming data).1 timeout, .writing framer⟩
  | configure (opts : List UartOption) (fromPid : Pid) :
      Waits (.configure opts) ⟨fromPid, .configure opts, .passing⟩
  | drain (fromPid : Pid) : Waits .drain ⟨fromPid, .drain, .passing⟩
  | flush (direction : Direction) (fromPid : Pid) :
      Waits (.flush direction) ⟨fromPid, .flush direction, .passing⟩
  | signals (fromPid : Pid) : Waits .signals ⟨fromPid, .signals, .passing⟩
  | setDtr (value : Bool) (fromPid : Pid) :
      Waits (.setDtr value) ⟨fromPid, .setDtr value, .passing⟩
  | setRts (value : Bool) (fromPid : Pid) :
      Waits (.setRts value) ⟨fromPid, .setRts value, .passing⟩
  | setBreak (value : Bool) (fromPid : Pid) :
      Waits (.setBreak value) ⟨fromPid, .setBreak value, .passing⟩

/-- A callback that serves the call of `fromPid` has replied to it, or waits for the port. -/
inductive Handles (fromPid : Pid) (call : Call) (ran : Ran β) : Prop
  | replied {reply : Reply β} (replies : replies ran.out = [(fromPid, reply)])
      (result : reply.ResultOf call) (idle : ran.pending = none)
  | waits {p : Pending β} (silent : replies ran.out = []) (pending : ran.pending = some p)
      (caller : p.fromPid = fromPid) (waits : Waits call p)

/-! ## Callbacks -/

theorem Handles.replyWith {s : State β} {timers : Timers} {fromPid : Pid} {reply : Reply β}
    {out : List (Label β)} {call : Call} (silent : Server.replies out = [])
    (result : reply.ResultOf call) :
    Handles fromPid call (Server.replyWith s timers fromPid reply out) := by
  refine .replied ?_ result rfl
  rw [Server.replyWith, replies_append, silent]
  rfl

theorem Handles.callPort {s : State β} {timers : Timers} {fromPid : Pid} {command : Command}
    {cont : Cont β} {out : List (Label β)} {call : Call} (silent : Server.replies out = [])
    (waits : Waits call ⟨fromPid, command, cont⟩) :
    Handles fromPid call (Server.callPort s timers fromPid command cont out) := by
  refine .waits ?_ rfl rfl waits
  rw [Server.callPort, replies_append, silent]
  rfl

theorem replies_reframed (opts : List UartOption) : replies (reframed (β := β) opts) = [] := by
  unfold reframed
  split <;> rfl

theorem replies_reportMessages (s : State β) (notices : List (Notice β)) :
    replies (reportMessages s notices) = [] := by
  refine List.filterMap_eq_nil_iff.mpr fun l hl => ?_
  obtain ⟨dest, id, notice, -, rfl⟩ := mem_reportMessages hl
  rfl

/-- A read is answered from the queue, or goes to the port. -/
theorem handleRead_handles (s : State β) (timers : Timers) (fromPid : Pid) (timeout left : Nat)
    (clock : Int) {out : List (Label β)} (silent : replies out = []) :
    Handles fromPid (.read timeout) (handleRead s timers fromPid left clock out) := by
  unfold handleRead
  split
  · exact .replyWith silent trivial
  · exact .callPort silent (.read timeout left clock fromPid)

/-- **A call is answered at once, or what it waits with is its own.** -/
theorem handleCall_handles (s : State β) (timers : Timers) (fromPid : Pid) (clock : Int)
    (call : Call) : Handles fromPid call (handleCall s timers fromPid clock call) := by
  cases call with
  | «open» name opts => exact .callPort rfl (.open name opts fromPid)
  | configuration => exact .callPort rfl (.configuration fromPid)
  | close => exact .callPort rfl (.close fromPid)
  | read timeout => exact handleRead_handles s timers fromPid timeout timeout clock rfl
  | write data timeout =>
    rw [handleCall, Framer.addFraming_snd]
    exact .callPort rfl (.write data timeout s.framer fromPid)
  | configure opts => exact .callPort (replies_reframed opts) (.configure opts fromPid)
  | drain => exact .callPort rfl (.drain fromPid)
  | flush direction =>
    refine .callPort ?_ (.flush direction fromPid)
    split <;> rfl
  | signals => exact .callPort rfl (.signals fromPid)
  | setDtr value => exact .callPort rfl (.setDtr value fromPid)
  | setRts value => exact .callPort rfl (.setRts value fromPid)
  | setBreak value => exact .callPort rfl (.setBreak value fromPid)
  | controllingProcess pid => exact .replyWith rfl trivial

/-- What the port answers to a call that is passed on is a result of it. -/
theorem result_of_answers {call : Call} {p : Pending β} {r : Response β} (waits : Waits call p)
    (answers : r.Answers p.command) (notRead : ∀ timeout, call ≠ .read timeout)
    (notConfiguration : call ≠ .configuration) : (Reply.port r).ResultOf call := by
  cases waits with
  | configuration => exact absurd rfl notConfiguration
  | read timeout => exact absurd rfl (notRead timeout)
  | signals =>
    cases r with
    | signals | error => trivial
    | _ => exact answers.elim
  | _ =>
    cases r with
    | ok | error => rfl
    | _ => exact answers.elim

variable [Octet β]

/-- **A response that answers what was asked** ends the callback that waits, or, for a read without
a message, makes it ask once more. -/
theorem resume_handles {s : State β} {timers : Timers} {p : Pending β} {now clock : Int}
    {r : Response β} {ran : Ran β} {call : Call} (h : resume s timers p now clock r = some ran)
    (waits : Waits call p) (answers : r.Answers p.command) : Handles p.fromPid call ran := by
  have result := result_of_answers waits answers
  cases waits with
  | «open» name opts =>
    obtain rfl := Option.some.inj h
    exact .replyWith (replies_reframed opts) (result (by simp) (by simp))
  | configuration =>
    cases r with
    | options port =>
      obtain rfl := Option.some.inj h
      exact .replyWith rfl trivial
    | _ => exact answers.elim
  | close =>
    obtain rfl := Option.some.inj h
    exact .replyWith rfl (result (by simp) (by simp))
  | read timeout left callTime fromPid =>
    cases r with
    | data bytes =>
      cases bytes with
      | nil =>
        obtain rfl := Option.some.inj h
        exact .replyWith rfl trivial
      | cons b bs =>
        have goes := turn_of_resume h
        cases goes with
        | readData => exact .replyWith rfl trivial
        | readMore => exact handleRead_handles _ _ _ _ _ _ rfl
        | answered cont =>
          obtain cont | cont | ⟨_, _, -, none⟩ := cont
          · exact absurd cont (by simp)
          · exact absurd cont (by simp)
          · exact absurd none (by simp [Response.bytes])
        | opened cont | closed cont | wrote cont => exact absurd cont (by simp)
    | error reason =>
      obtain rfl := Option.some.inj h
      exact .replyWith rfl rfl
    | _ => exact answers.elim
  | write | configure | drain | flush | signals | setDtr | setRts | setBreak =>
    obtain rfl := Option.some.inj h
    exact .replyWith rfl (result (by simp) (by simp))

/-- A message that is no call is nobody's reply. -/
theorem run_silent {s : State β} {timers : Timers} {now clock : Int} {m : Msg β} {ran : Ran β}
    (h : run s timers now clock (.message m) = some ran) (noCall : ∀ pid call, m ≠ .call pid call) :
    replies ran.out = [] ∧ ran.pending = none := by
  have goes := turn_of_run h
  cases goes with
  | notified =>
    refine ⟨?_, rfl⟩
    rw [← List.singleton_append, replies_append, replies_reportMessages]
    rfl
  | failed => exact ⟨replies_reportMessages _ _, rfl⟩
  | timedOut =>
    refine ⟨?_, rfl⟩
    rw [handleTimedOut, ← List.singleton_append, replies_append, notifyTimedoutMessages]
    split
    · exact replies_reportMessages _ _
    · rfl
    · rfl
  | ask | readQueued | configure | flush | control => exact absurd rfl (noCall _ _)

omit [Octet β] in
theorem called_reportMessages (s : State β) (notices : List (Notice β)) :
    called (reportMessages s notices) = [] := by
  refine List.filterMap_eq_nil_iff.mpr fun l hl => ?_
  obtain ⟨dest, id, notice, -, rfl⟩ := mem_reportMessages hl
  rfl

omit [Octet β] in
theorem called_reframed (opts : List UartOption) : called (reframed (β := β) opts) = [] := by
  unfold reframed
  split <;> rfl

omit [Octet β] in
theorem called_handleRead (s : State β) (timers : Timers) (fromPid : Pid) (timeout : Nat)
    (clock : Int) (out : List (Label β)) :
    called (handleRead s timers fromPid timeout clock out).out = called out := by
  unfold handleRead
  split
  · rw [replyWith, called_append]
    exact List.append_nil _
  · rw [callPort, called_append]
    exact List.append_nil _

/-- No callback makes a call. -/
theorem Turn.called {s : State β} {timers : Timers} {taken : Taken β} {ran : Ran β}
    (h : Turn s timers taken ran) : called ran.out = [] := by
  cases h with
  | configure =>
    rw [handleConfigure, callPort, called_append, called_reframed]
    rfl
  | flush =>
    rw [handleFlush, callPort, called_append]
    split <;> rfl
  | opened =>
    rw [resumeOpening, replyWith, called_append, called_reframed]
    rfl
  | notified => exact called_reportMessages _ _
  | failed => exact called_reportMessages _ _
  | timedOut =>
    rw [handleTimedOut, notifyTimedoutMessages]
    split
    · exact called_reportMessages _ _
    · rfl
    · rfl
  | readMore => exact called_handleRead _ _ _ _ _ _
  | _ => rfl

end Server

/-! ## The two processes -/

namespace System

variable {β : Type}

/-- Calls are replied to in order: some have been, one at most is being served, and the others lie
in the mailbox. -/
structure Served (h : List (Label β)) (σ : System β) : Prop where
  aligned : Aligned σ
  silent : σ.program.out = []
  calls : ∃ done served,
    called (serverLabels h) = done ++ served ++ mailCalls σ.server.mailbox ∧
      List.Forall₂ (fun c r => r.1 = c.1 ∧ r.2.ResultOf c.2) done (replies (serverLabels h)) ∧
      List.Forall₂ (fun c p => p.fromPid = c.1 ∧ Waits c.2 p) served σ.server.pending.toList
  serving : ∀ p, σ.server.pending = some p →
    Program.Serving p.command σ.program ∧ ∀ r ∈ responses σ.incoming, r.Answers p.command

/-- A call, or a message that is none, has come to the mailbox. -/
theorem Served.arrived {h : List (Label β)} {σ σ' : System β} (S : Served h σ) {m : Msg β}
    (aligned : Aligned σ') (program : σ'.program = σ.program)
    (pending : σ'.server.pending = σ.server.pending)
    (mailbox : σ'.server.mailbox = σ.server.mailbox ++ [m])
    (incoming : responses σ'.incoming = responses σ.incoming) :
    Served (h ++ [.server (.arrived m)]) σ' := by
  obtain ⟨done, served, calls, replied, waiting⟩ := S.calls
  have labels : serverLabels (h ++ [.server (.arrived m)]) = serverLabels h ++ [.arrived m] := by
    simp [serverLabels, Label.server?]
  have called : Server.called [.arrived m] = mailCalls [m] := by cases m <;> rfl
  have quiet : Server.replies [.arrived m] = [] := rfl
  refine ⟨aligned, by rw [program, S.silent], ⟨done, served, ?_, ?_, by rwa [pending]⟩, ?_⟩
  · rw [labels, called_append, called, calls, mailbox, mailCalls_append, List.append_assoc]
  · rwa [labels, replies_append, quiet, List.append_nil]
  · rw [pending, program, incoming]
    exact S.serving

/-- The C program has run, for the request that is waited for. -/
theorem Served.handled {h : List (Label β)} {σ σ' : System β} (S : Served h σ) {q : Program β}
    {stdin : List Command} {out : List (Label β)} (aligned : Aligned σ')
    (after : σ' = { σ with
      program := { q with out := [] }, stdin := stdin, stdout := σ.stdout ++ q.out })
    (silent : serverLabels out = [])
    (serves : ∀ p, σ.server.pending = some p → Program.Serving p.command q) :
    Served (h ++ out) σ' := by
  subst after
  refine ⟨aligned, rfl, ?_, fun p waits => ⟨?_, fun r hr => ?_⟩⟩
  · rw [serverLabels_append, silent, List.append_nil]
    exact S.calls
  · have serving := serves p waits
    exact ⟨serving.write, serving.read, by simp⟩
  · change r ∈ responses (σ.server.mailbox ++ (σ.stdout ++ q.out).map msg) at hr
    rw [incoming_wrote, responses_append, List.mem_append] at hr
    rcases hr with earlier | now
    · exact (S.serving p waits).2 r earlier
    · exact (serves p waits).sent r (mem_responses_map_msg.mp now)

variable [Octet β]

/-- What a turn runs. -/
theorem step_turn {σ σ' : System β} {now clock : Int} {out : List (Label β)}
    (h : step σ (.turn now clock) = some (σ', out)) :
    ∃ taken rest ran, Server.next σ.server = some (taken, rest) ∧
      Server.run σ.server.state σ.server.timers now clock taken = some ran ∧
      out = ran.out.map .server ∧
      σ' = { σ with
        server := ⟨ran.state, ran.timers, ran.pending, rest⟩
        stdin := σ.stdin ++ asked ran.out } := by
  simp only [step, serverStep] at h
  split at h
  · exact absurd h (by simp)
  · next server out' took =>
    obtain ⟨rfl, rfl⟩ := Prod.mk.inj (Option.some.inj h)
    rcases Server.step_cases took with ⟨_, happens, -⟩ | ⟨_, happens, -⟩ |
      ⟨now', clock', taken, rest, ran, happens, next, run, rfl, rfl⟩
    · exact absurd happens (by simp)
    · exact absurd happens (by simp)
    · obtain ⟨rfl, rfl⟩ := Server.Event.turn.inj happens
      exact ⟨taken, rest, ran, next, run, rfl, rfl⟩

omit [Octet β] in
/-- A turn that serves a call moves it on: to those that have their reply, or to the one that
waits. -/
theorem Served.handles {h : List (Label β)} {σ σ' : System β} (S : Served h σ)
    {fromPid : Pid} {call : Call} {ran : Ran β} (done : List (Pid × Call)) {rest : List (Msg β)}
    (handles : Handles fromPid call ran) (aligned : Aligned σ')
    (after : σ' = { σ with
      server := ⟨ran.state, ran.timers, ran.pending, rest⟩
      stdin := σ.stdin ++ asked ran.out })
    (noCall : called ran.out = [])
    (calls : called (serverLabels h) = done ++ (fromPid, call) :: mailCalls rest)
    (replied : List.Forall₂ (fun c r => r.1 = c.1 ∧ r.2.ResultOf c.2) done
      (replies (serverLabels h)))
    (idle : σ.program.pending = false) (none : responses (rest ++ σ.stdout.map msg) = []) :
    Served (h ++ ran.out.map .server) σ' := by
  subst after
  refine ⟨aligned, S.silent, ?_, fun p waits => ⟨.of_idle idle S.silent, fun r hr => ?_⟩⟩
  · rw [serverLabels_append, serverLabels_map, called_append, replies_append, noCall,
      List.append_nil, calls]
    cases handles with
    | @replied reply replies result pending =>
      refine ⟨done ++ [(fromPid, call)], [], by simp, ?_, ?_⟩
      · rw [replies]
        exact List.rel_append replied (.cons ⟨rfl, result⟩ .nil)
      · rw [pending]
        exact .nil
    | @waits p silent pending caller waits =>
      refine ⟨done, [(fromPid, call)], by simp, ?_, ?_⟩
      · rwa [silent, List.append_nil]
      · rw [pending]
        exact .cons ⟨caller, waits⟩ .nil
  · change r ∈ responses (rest ++ σ.stdout.map msg) at hr
    rw [none] at hr
    exact absurd hr (by simp)

/-- **A turn** serves the next call or the one that waits, or none. -/
theorem Served.turn {h : List (Label β)} {σ σ' : System β} (S : Served h σ) {now clock : Int}
    {out : List (Label β)} (took : step σ (.turn now clock) = some (σ', out)) :
    Served (h ++ out) σ' := by
  have aligned := step_aligned S.aligned took
  obtain ⟨taken, rest, ran, next, run, rfl, after⟩ := step_turn took
  obtain ⟨done, served, calls, replied, waiting⟩ := S.calls
  have noCall := (turn_of_run run).called
  obtain ⟨before, m, behind, mailbox, hrest, -, -, idle, none, takes⟩ := S.aligned.next next
  have mail : mailCalls σ.server.mailbox =
      mailCalls before ++ (mailCalls [m] ++ mailCalls behind) := by
    rw [mailbox, ← mailCalls_append, ← mailCalls_append]
    rfl
  rcases takes with ⟨rfl, rfl⟩ | ⟨p, r, rfl, rfl⟩
  · -- nobody waits, so the call that is taken is the first that is left
    obtain ⟨_, heq, nobody, -⟩ | ⟨_, _, _, _, heq, -⟩ := next_eq_some next
    swap
    · exact absurd heq (by simp)
    rw [nobody] at waiting
    cases waiting
    have left : rest = behind := hrest
    subst left
    by_cases isCall : ∃ pid call, m = .call pid call
    · obtain ⟨pid, call, rfl⟩ := isCall
      obtain rfl := Option.some.inj run
      refine S.handles done (handleCall_handles _ _ pid clock call) aligned after noCall
        ?_ replied idle none
      rw [calls, mail]
      simp [mailCalls]
    · have other : ∀ pid call, m ≠ .call pid call := fun pid call heq => isCall ⟨pid, call, heq⟩
      obtain ⟨silent, free⟩ := run_silent run other
      have noMail : mailCalls [m] = [] := by
        cases m with
        | call pid call => exact absurd rfl (other pid call)
        | _ => rfl
      subst after
      refine ⟨aligned, S.silent, ⟨done, [], ?_, ?_, ?_⟩, fun p waits => ?_⟩
      · rw [serverLabels_append, serverLabels_map, called_append, noCall, calls, mail, noMail]
        simp [mailCalls]
      · rwa [serverLabels_append, serverLabels_map, replies_append, silent, List.append_nil]
      · show List.Forall₂ _ [] ran.pending.toList
        rw [free]
        exact .nil
      · exact absurd (free.symm.trans waits) (by simp)
  · -- the response is for the callback that waits, and of the kind that its call asks for
    obtain ⟨waits, mem⟩ := mem_responses_of_next next
    rw [waits] at waiting
    obtain ⟨⟨pid, call⟩, _, ⟨caller, serves⟩, last, rfl⟩ := List.forall₂_cons_right_iff.mp waiting
    cases last
    have handles := resume_handles run serves ((S.serving p waits).2 r mem)
    rw [caller] at handles
    refine S.handles done handles aligned after noCall ?_ replied idle none
    rw [calls, mail, hrest, mailCalls_append]
    simp [mailCalls]

/-- **A step keeps the order of calls.** -/
theorem step_served {h : List (Label β)} {σ σ' : System β} {e : Event β} {out : List (Label β)}
    (S : Served h σ) (took : step σ e = some (σ', out)) : Served (h ++ out) σ' := by
  have aligned := step_aligned S.aligned took
  cases e with
  | turn now clock => exact S.turn took
  | call fromPid call =>
    cases step_cases took with
    | call => exact S.arrived aligned rfl rfl rfl (responses_arrived (by simp))
  | expire tref =>
    cases step_cases took with
    | expire => exact S.arrived aligned rfl rfl rfl (responses_arrived (by simp))
  | deliver =>
    cases step_cases took with
    | deliver stdout =>
      exact S.arrived aligned rfl rfl rfl (congrArg responses (incoming_deliver stdout))
  | request os =>
    cases step_cases took with
    | @request _ command rest q stdin handled =>
      obtain ⟨-, idle, -, p, waits, rfl⟩ := S.aligned.asked stdin
      refine S.handled aligned rfl rfl fun p' waits' => ?_
      obtain rfl := Option.some.inj (waits.symm.trans waits')
      refine Program.handle_serves handled (by simp) fun os' c heq => ?_
      exact ⟨(Program.Event.request.inj heq).2.symm, idle⟩
  | process os =>
    cases step_cases took with
    | process handled =>
      refine S.handled aligned rfl rfl fun p waits => ?_
      exact Program.handle_serves handled (fun _ _ => (S.serving p waits).1) (by simp)

omit [Octet β] in
theorem served_init : Served [] ({} : System β) :=
  ⟨Quiet.aligned ⟨rfl, rfl, rfl⟩ rfl, rfl, ⟨[], [], rfl, .nil, .nil⟩,
    fun p waits => absurd waits (by simp)⟩

/-- **Every call gets its own reply.** In every run, whatever calls come, from whom and when, and
however the OS answers the C program: the replies are, in order, those of the first calls, each to
the process that called and of the kind that its callback replies with (`Reply.ResultOf`); at most
one further call is being served, exactly while a callback waits for the port; and the others lie in
the mailbox. -/
theorem replies_of_reach {h : List (Label β)} {σ : System β}
    (r : Reach step anyStep ({} : System β) h σ) :
    ∃ done served, called (serverLabels h) = done ++ served ++ mailCalls σ.server.mailbox ∧
      List.Forall₂ (fun c r => r.1 = c.1 ∧ r.2.ResultOf c.2) done (replies (serverLabels h)) ∧
      List.Forall₂ (fun c p => p.fromPid = c.1 ∧ Waits c.2 p) served σ.server.pending.toList :=
  (Reach.invariant served_init (fun _ _ _ _ _ S _ took => step_served S took) r).calls

/-- A port is opened that is not there. -/
def refusedOpen : List (Event UInt8) :=
  [.call 7 (.open [116] []), .call 8 .close, .turn 0 0, .request {}, .deliver, .turn 0 0]

/-- The first of two calls has had its reply, and the other lies in the mailbox. -/
theorem replies_of_reach_refused :
    ∃ h σ, exec step ({} : System UInt8) refusedOpen = some (σ, h) ∧
      mailCalls σ.server.mailbox = [(8, .close)] ∧
      ∃ done served, called (serverLabels h) = done ++ served ++ mailCalls σ.server.mailbox ∧
        List.Forall₂ (fun c r => r.1 = c.1 ∧ r.2.ResultOf c.2) done (replies (serverLabels h)) ∧
        List.Forall₂ (fun c p => p.fromPid = c.1 ∧ Waits c.2 p) served σ.server.pending.toList :=
  ⟨_, _, rfl, rfl, replies_of_reach (.of_exec (show exec step _ refusedOpen = some _ from rfl))⟩

end System

end CircuitsUart
