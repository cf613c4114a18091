import CircuitsUart.Port.OnWire
import CircuitsUart.System.Calls

/-!
# What is on the wire

Writes of any number of processes go through one GenServer and one C program, each in as many
pieces as the device likes to take, while other calls, notifications and timers come in between.
What the device has taken is, call by call, the framed data of each write that was answered with
`:ok`, the front of it for a write that failed, and the front of what is being written.

The bytes that the device takes are beside the system, in the order in which it takes them
(`Tapped`), because no message of the C program has them. `Sent` cuts them into a part for each
call that has its reply and one for the call that waits. The parts are an existential: where one
write ends and the next begins cannot be seen on the wire, and nothing in the program marks it.

What the framer adds is a function, `frame`, and it is fixed as long as no call asks for another
framer. A flush or a close changes the framer's state and not what it adds, so these are allowed.
-/

set_option autoImplicit false

namespace CircuitsUart

open Lib Port Server

variable {β : Type}

/-- `add_framing/2` does this. -/
def Framer.Frames (frame : List UInt8 → List UInt8) (f : Framer β) : Prop :=
  ∀ data, (f.addFraming data).1 = frame data

theorem Framer.frames_frameTimeout {frame : List UInt8 → List UInt8} {f : Framer β}
    (frames : f.Frames frame) : f.frameTimeout.2.Frames frame := by
  intro data
  cases f <;> exact frames data

theorem Framer.frames_removeFraming [Octet β] {frame : List UInt8 → List UInt8} {f f' : Framer β}
    {data : List β} {rc : Rc} {ms : List (Message β)} (frames : f.Frames frame)
    (removed : f.removeFraming data = some (rc, ms, f')) : f'.Frames frame := by
  intro sent
  rcases Framer.removeFraming_cases removed with ⟨rfl, rfl, -⟩ | ⟨_, _, rfl, rfl, -⟩ |
    ⟨s, s', rfl, rfl, separator, -⟩
  · exact frames sent
  · exact frames sent
  · rw [← frames sent]
    show (Line.addFraming sent s').1 = (Line.addFraming sent s).1
    rw [Line.addFraming, Line.addFraming, separator]

/-- A flush empties the framer, and leaves what it adds. -/
theorem Framer.frames_flush {frame : List UInt8 → List UInt8} {f : Framer β}
    (frames : f.Frames frame) (direction : Direction) : (f.flush direction).Frames frame := by
  intro data
  cases f with
  | none => exact frames data
  | fourByte => cases direction <;> exact frames data
  | line => cases direction <;> exact frames data

namespace Server

/-- The calls that do not ask for another framer. They may flush the one that is there. -/
def Call.keepsFraming : Call → Bool
  | .open _ opts | .configure opts => (keywordGet (fun o => o.framing?.map some) opts none).isNone
  | _ => true

/-- What may be waited for when no other framer is asked for. -/
def Pending.KeepsFraming (p : Pending β) : Prop :=
  ∀ name opts, p.cont = .opening name opts →
    keywordGet (fun o => o.framing?.map some) opts none = none

/-- What may be taken. -/
def Taken.KeepsFraming : Taken β → Prop
  | .message (.call _ call) => call.keepsFraming = true
  | .message _ => True
  | .response p _ => p.KeepsFraming

section

variable [Octet β] {frame : List UInt8 → List UInt8} {s : State β} {timers : Timers}
  {taken : Taken β} {ran : Ran β}

theorem Turn.keepsFraming (h : Turn s timers taken ran) (keeps : taken.KeepsFraming) :
    ∀ p, ran.pending = some p → p.KeepsFraming := by
  intro p waits
  cases h with
  | ask asks =>
    obtain rfl := Option.some.inj waits
    cases asks with
    | «open» name opts =>
      intro name' opts' same
      obtain ⟨-, rfl⟩ := Cont.opening.inj same
      exact Option.isNone_iff_eq_none.mp keeps
    | _ => exact fun _ _ other => absurd other (by simp)
  | configure | flush =>
    obtain rfl := Option.some.inj waits
    exact fun _ _ other => absurd other (by simp)
  | readMore =>
    unfold handleRead at waits
    split at waits
    · exact absurd waits (by simp [replyWith])
    · obtain rfl := Option.some.inj waits
      exact fun _ _ other => absurd other (by simp)
  | _ => exact absurd waits (by simp [replyWith, resumeOpening, resumeClosing, handleTimedOut])

/-- **A turn leaves what the framer adds**, unless another framer is asked for. -/
theorem Turn.frames (h : Turn s timers taken ran) (keeps : taken.KeepsFraming)
    (coherent : ∀ p r, taken = .response p r → Coherent s p) (frames : s.framer.Frames frame) :
    ran.state.framer.Frames frame := by
  have data {rc : Rc} {ms : List (Message β)} {framer : Framer β} {bytes : List β}
      (framed : s.framer.removeFraming bytes = some (rc, ms, framer)) :
      (afterData s timers framer rc).state.framer.Frames frame := by
    rw [afterData, handleFramingTimer_framer]
    exact Framer.frames_removeFraming frames framed
  cases h with
  | ask | readQueued | control | failed | answered => exact frames
  | configure =>
    rw [handleConfigure, callPort, Option.isNone_iff_eq_none.mp keeps]
    exact frames
  | flush => exact Framer.frames_flush frames _
  | notified framed => exact data framed
  | timedOut =>
    dsimp only [handleTimedOut]
    rw [notifyTimedoutMessages_state]
    exact Framer.frames_frameTimeout frames
  | opened cont =>
    rw [resumeOpening, replyWith, keeps _ _ cont]
    exact frames
  | closed =>
    rw [resumeClosing, replyWith, handleFramingTimer_framer]
    exact Framer.frames_flush frames .both
  | wrote cont =>
    have same := coherent _ _ rfl
    rw [Coherent, cont] at same
    rw [replyWith, same]
    exact frames
  | readData _ _ framed => exact data framed
  | readMore _ _ framed =>
    have kept := data framed
    unfold handleRead
    split <;> exact kept

end

/-- The calls that have been replied to, each with its reply. -/
def answered (h : List (Label β)) : List (Call × Reply β) :=
  ((called h).zip (replies h)).map fun e => (e.1.2, e.2.2)

theorem answered_eq {h : List (Label β)} {done rest : List (Pid × Call)}
    (calls : called h = done ++ rest) (length : done.length = (replies h).length) :
    answered h = (done.zip (replies h)).map fun e => (e.1.2, e.2.2) := by
  have split : (done ++ rest).zip (replies h ++ []) = done.zip (replies h) ++ rest.zip [] :=
    List.zip_append length
  rw [List.append_nil, List.zip_nil_right, List.append_nil] at split
  rw [answered, calls, split]

/-- Nobody is replied to. -/
theorem answered_silent {h out : List (Label β)} {done rest : List (Pid × Call)}
    (calls : called h = done ++ rest) (length : done.length = (replies h).length)
    (silent : replies out = []) : answered (h ++ out) = answered h := by
  have all : replies (h ++ out) = replies h := by rw [replies_append, silent, List.append_nil]
  have later : called (h ++ out) = done ++ (rest ++ called out) := by
    rw [called_append, calls, List.append_assoc]
  rw [answered_eq calls length, answered_eq later (by rw [all, length]), all]

/-- The next call is replied to. -/
theorem answered_reply {h out : List (Label β)} {done rest : List (Pid × Call)} {pid : Pid}
    {call : Call} {reply : Reply β} (calls : called h = done ++ (pid, call) :: rest)
    (length : done.length = (replies h).length) (replied : replies out = [(pid, reply)]) :
    answered (h ++ out) = answered h ++ [(call, reply)] := by
  have all : replies (h ++ out) = replies h ++ [(pid, reply)] := by rw [replies_append, replied]
  have later : called (h ++ out) = (done ++ [(pid, call)]) ++ (rest ++ called out) := by
    rw [called_append, calls]
    simp
  rw [answered_eq calls length, answered_eq later (by rw [all]; simp [length]), all,
    List.zip_append length, List.map_append]
  rfl

end Server

namespace System

/-! ## The wire -/

/-- The bytes that the device takes in a step. -/
def wire (σ : System β) : Event β → List UInt8
  | .request os =>
    match σ.stdin with
    | [] => []
    | command :: _ => σ.program.wire (.request os command)
  | .process os => σ.program.wire (.process os)
  | _ => []

/-- What a call has put on the wire that has its reply. -/
def Carried (frame : List UInt8 → List UInt8) (part : List UInt8) :
    Server.Call × Reply β → Prop
  | (.write data _, reply) => part <+: frame data ∧ (reply = .port .ok → part = frame data)
  | _ => part = []

/-- What the write of `data` that is waited for has put on the wire. -/
structure Part (data part : List UInt8) (σ : System β) : Prop where
  front : part <+: data
  unread : σ.stdin ≠ [] → part = []
  going : ∀ d, σ.program.uart.writeData = some d →
    d = data ∧ σ.program.uart.writeOffset = part.length
  whole : .ok ∈ responses σ.incoming → part = data

/-- What the call that waits has put on the wire. -/
def Now (part : List UInt8) (σ : System β) : Prop :=
  match σ.server.pending.map Pending.command with
  | some (.write data _) => Part data part σ
  | _ => part = []

/-- No call asks for another framer. -/
def Event.keepsFraming : Event β → Bool
  | .call _ c => c.keepsFraming
  | _ => true

/-- Nothing has been asked, nothing is under way and nothing is on its way, as at the start or
between two calls. -/
structure AtRest (f₀ : Framer β) (σ : System β) : Prop where
  framer : σ.server.state.framer = f₀
  waits : σ.server.pending = none
  mailbox : σ.server.mailbox = []
  idle : σ.program.pending = false
  silent : σ.program.out = []
  stdin : σ.stdin = []
  stdout : σ.stdout = []

theorem atRest_init : AtRest .none ({} : System β) := ⟨rfl, rfl, rfl, rfl, rfl, rfl, rfl⟩

theorem Started.atRest {f₀ : Framer β} {σ : System β} (start : Started f₀ σ)
    (silent : σ.program.out = []) : AtRest f₀ σ :=
  ⟨start.framer, start.waits, start.mailbox, start.idle, silent, start.stdin, start.stdout⟩

/-- The calls have put `wire` on the wire. -/
structure Sent (frame : List UInt8 → List UInt8) (h : List (Label β)) (wire : List UInt8)
    (σ : System β) : Prop where
  served : Served h σ
  frames : σ.server.state.framer.Frames frame
  calls : ∀ pid call, .call pid call ∈ σ.server.mailbox → call.keepsFraming = true
  waits : ∀ p, σ.server.pending = some p → p.KeepsFraming
  parts : ∃ parts part, wire = parts.flatten ++ part ∧
    List.Forall₂ (Carried frame) parts (answered (serverLabels h)) ∧ Now part σ

variable {frame : List UInt8 → List UInt8} {h out : List (Label β)} {w part : List UInt8}
  {σ σ' : System β}

/-- What waits is as it was, and so is what it has put on the wire. -/
theorem Now.same (now : Now part σ) (pending : σ'.server.pending = σ.server.pending)
    (stdin : σ'.stdin = σ.stdin) (uart : σ'.program.uart = σ.program.uart)
    (incoming : responses σ'.incoming = responses σ.incoming) : Now part σ' := by
  unfold Now at now ⊢
  rw [pending]
  split
  · next data _ waits =>
    rw [waits] at now
    have now : Part data part σ := now
    exact ⟨now.front, fun unread => now.unread (stdin ▸ unread),
      fun d going => by rw [uart] at going ⊢; exact now.going d going,
      fun told => now.whole (incoming ▸ told)⟩
  · next other =>
    split at now
    · next waits => exact absurd waits (other _ _)
    · exact now

theorem Served.done (S : Served h σ) : ∃ done rest,
    called (serverLabels h) = done ++ rest ∧ done.length = (replies (serverLabels h)).length := by
  obtain ⟨done, served, calls, replied, -⟩ := S.calls
  exact ⟨done, _, calls.trans (List.append_assoc ..), replied.length_eq⟩

/-- The calls that have been replied to stay what they are. -/
theorem Served.answered_silent (S : Served h σ) (silent : replies (serverLabels out) = []) :
    answered (serverLabels (h ++ out)) = answered (serverLabels h) := by
  obtain ⟨done, rest, calls, length⟩ := S.done
  rw [serverLabels_append, Server.answered_silent calls length silent]

/-- A message has come that is no response. -/
theorem Sent.arrived (S : Sent frame h w σ) {m : Msg β}
    (served : Served (h ++ [.server (.arrived m)]) σ') (program : σ'.program = σ.program)
    (state : σ'.server.state = σ.server.state) (pending : σ'.server.pending = σ.server.pending)
    (mailbox : σ'.server.mailbox = σ.server.mailbox ++ [m]) (stdin : σ'.stdin = σ.stdin)
    (incoming : responses σ'.incoming = responses σ.incoming)
    (call : ∀ pid call, m = .call pid call → call.keepsFraming = true) :
    Sent frame (h ++ [.server (.arrived m)]) w σ' := by
  obtain ⟨parts, part, wire, carried, now⟩ := S.parts
  refine ⟨served, state ▸ S.frames, fun pid c inside => ?_, pending ▸ S.waits,
    ⟨parts, part, wire, ?_, now.same pending stdin (by rw [program]) incoming⟩⟩
  · rw [mailbox, List.mem_append, List.mem_singleton] at inside
    rcases inside with before | here
    · exact S.calls pid c before
    · exact call pid c here.symm
  · rwa [S.served.answered_silent rfl]

/-- The C program has run. -/
theorem Sent.ran (S : Sent frame h w σ) {q : Program β} {stdin : List Command}
    (bytes : List UInt8) (served : Served (h ++ out) σ') (silent : serverLabels out = [])
    (after : σ' = { σ with
      program := { q with out := [] }, stdin := stdin, stdout := σ.stdout ++ q.out })
    (writes : ∀ data part timeout, (σ.server.pending.map Pending.command) =
      some (.write data timeout) → Part data part σ → Part data (part ++ bytes) σ')
    (others : (∀ data timeout, σ.server.pending.map Pending.command ≠
      some (.write data timeout)) → bytes = []) :
    Sent frame (h ++ out) (w ++ bytes) σ' := by
  obtain ⟨parts, part, wire, carried, now⟩ := S.parts
  subst after
  refine ⟨served, S.frames, S.calls, S.waits, ⟨parts, part ++ bytes, ?_, ?_, ?_⟩⟩
  · rw [wire, List.append_assoc]
  · rwa [S.served.answered_silent (by rw [silent]; rfl)]
  · unfold Now at now ⊢
    split
    · next data timeout waits =>
      rw [waits] at now
      exact writes data part timeout waits now
    · next other =>
      rw [others other, List.append_nil]
      split at now
      · next waits => exact absurd waits (other _ _)
      · exact now

/-! ## The C program -/

theorem mem_responses_wrote {q : Program β} {r : Response β} {stdin : List Command}
    (told : r ∈ responses (System.incoming { σ with
      program := { q with out := [] }, stdin := stdin, stdout := σ.stdout ++ q.out })) :
    r ∈ responses σ.incoming ∨ .response r ∈ q.out := by
  change r ∈ responses (σ.server.mailbox ++ (σ.stdout ++ q.out).map msg) at told
  rw [incoming_wrote, responses_append, List.mem_append] at told
  exact told.imp_right mem_responses_map_msg.mp

/-- Nothing is being written unless a write is waited for. -/
theorem Served.noWrite (S : Served h σ) (other : ∀ data timeout,
    σ.server.pending.map Pending.command ≠ some (.write data timeout)) :
    σ.program.uart.writeData = none := by
  cases waits : σ.server.pending with
  | none => exact (Program.pending_eq_false.mp (S.aligned.quiet waits).idle).1
  | some p =>
    cases write : σ.program.uart.writeData with
    | none => rfl
    | some d =>
      obtain ⟨data, timeout, same⟩ := (S.serving p waits).1.write (by rw [write]; rfl)
      exact absurd (by rw [waits, Option.map_some, same]) (other data timeout)

variable [Octet β]

theorem Sent.request (S : Sent frame h w σ) {os : Os β}
    (took : step σ (.request os) = some (σ', out)) :
    Sent frame (h ++ out) (w ++ wire σ (.request os)) σ' := by
  have served := step_served S.served took
  cases step_cases took with
  | @request _ command rest q asks handled =>
    obtain ⟨rfl, idle, quiet, p, waits, rfl⟩ := S.served.aligned.asked asks
    have bytes : wire σ (.request os) = σ.program.wire (.request os p.command) := by
      simp only [wire, asks]
    rw [bytes]
    refine S.ran _ served rfl rfl (fun data part timeout writes before => ?_) fun other => ?_
    · rw [waits, Option.map_some, Option.some.injEq] at writes
      rw [writes] at handled ⊢
      have sends := Program.sends_request idle handled
      rw [before.unread (by rw [asks]; exact List.cons_ne_nil _ _), List.nil_append]
      refine ⟨sends.front, fun more => absurd rfl more, sends.going, fun told => ?_⟩
      rcases mem_responses_wrote told with earlier | now
      · rw [quiet] at earlier
        exact absurd earlier List.not_mem_nil
      · exact sends.whole now
    · refine Program.wire_other os fun data timeout same => other data timeout ?_
      rw [waits, Option.map_some, same]

theorem Sent.process (S : Sent frame h w σ) {os : Os β}
    (took : step σ (.process os) = some (σ', out)) :
    Sent frame (h ++ out) (w ++ wire σ (.process os)) σ' := by
  have served := step_served S.served took
  cases step_cases took with
  | @process _ q handled =>
    refine S.ran (σ.program.wire (.process os)) served rfl rfl
      (fun data part timeout writes before => ?_) fun other => ?_
    · have sends : Program.Sends data part σ.program :=
        ⟨before.front, before.going, fun told => absurd told (by rw [S.served.silent]; simp)⟩
      have sends := sends.process handled
      have idle (nothing : σ.program.pending = false) : σ.program.wire (.process os) = [] :=
        Program.wire_idle (Program.pending_eq_false.mp nothing).1 os
      refine ⟨sends.front, fun unread => ?_, sends.going, fun told => ?_⟩
      · obtain ⟨command, rest, asks⟩ := List.exists_cons_of_ne_nil unread
        rw [before.unread unread, idle (S.served.aligned.asked asks).2.1]
        rfl
      · rcases mem_responses_wrote told with earlier | now
        · rw [before.whole earlier, idle (S.served.aligned.answered earlier).2.1]
          exact List.append_nil data
        · exact sends.whole now
    · exact Program.wire_idle (S.served.noWrite other) os

/-! ## The server -/

omit [Octet β] in
/-- Nothing is under way, and what has just been asked has put nothing on the wire. -/
theorem now_nil (idle : σ.program.pending = false) (none : responses σ.incoming = []) :
    Now [] σ := by
  unfold Now
  split
  · refine ⟨List.nil_prefix, fun _ => rfl, fun d going => ?_, fun told => ?_⟩
    · exact absurd ((Program.pending_eq_false.mp idle).1.symm.trans going) (by simp)
    · exact absurd told (by simp [none])
  · rfl

omit [Octet β] in
/-- What a turn takes asks for no other framer. -/
theorem Sent.keeps (S : Sent frame h w σ) {taken : Taken β} {rest : List (Msg β)}
    (next : Server.next σ.server = some (taken, rest)) : taken.KeepsFraming := by
  rcases next_eq_some next with ⟨m, rfl, -, mailbox⟩ | ⟨p, r, -, -, rfl, waits, -⟩
  · cases m with
    | call pid call => exact S.calls pid call (by rw [mailbox]; exact List.mem_cons_self)
    | _ => trivial
  · exact S.waits p waits

/-- The calls that have their reply have put `wire` on the wire. -/
def Settled (frame : List UInt8 → List UInt8) (h : List (Label β)) (wire : List UInt8) : Prop :=
  ∃ parts, wire = parts.flatten ∧
    List.Forall₂ (Carried frame) parts (answered (serverLabels h))

section

variable {parts : List (List UInt8)} {ran : Ran β} (wire : w = parts.flatten ++ part)
  (carried : List.Forall₂ (Carried frame) parts (answered (serverLabels h)))

include wire carried

omit [Octet β] in
/-- Nobody is replied to, and nobody has put anything on the wire. -/
theorem Served.settled (S : Served h σ) (empty : part = []) (silent : replies ran.out = []) :
    Settled frame (h ++ ran.out.map .server) w := by
  refine ⟨parts, by rw [wire, empty, List.append_nil], ?_⟩
  rwa [S.answered_silent (by rw [serverLabels_map, silent])]

omit [Octet β] in
/-- The call that was served is replied to. -/
theorem settled_reply {done rest : List (Pid × Server.Call)} {pid : Pid} {call : Server.Call}
    {reply : Reply β} (calls : called (serverLabels h) = done ++ (pid, call) :: rest)
    (length : done.length = (replies (serverLabels h)).length)
    (replied : replies ran.out = [(pid, reply)]) (carries : Carried frame part (call, reply)) :
    Settled frame (h ++ ran.out.map .server) w := by
  refine ⟨parts ++ [part], by rw [wire, List.flatten_append, List.flatten_singleton], ?_⟩
  rw [serverLabels_append, serverLabels_map, answered_reply calls length replied]
  exact List.rel_append carried (.cons carries .nil)

omit [Octet β] in
/-- A call that is no write is replied to, or waits for the port. -/
theorem Served.settled_other (S : Served h σ) (empty : part = [])
    {done rest : List (Pid × Server.Call)} {pid : Pid} {call : Server.Call}
    (calls : called (serverLabels h) = done ++ (pid, call) :: rest)
    (length : done.length = (replies (serverLabels h)).length) (handles : Handles pid call ran)
    (other : ran.pending = none → ∀ data timeout, call ≠ .write data timeout) :
    Settled frame (h ++ ran.out.map .server) w := by
  cases handles with
  | @replied reply replied result free =>
    refine settled_reply wire carried calls length replied ?_
    rw [empty]
    cases call with
    | write data timeout => exact absurd rfl (other free data timeout)
    | _ => rfl
  | waits silent => exact S.settled wire carried empty silent

/-- A message is taken while nobody waits. -/
theorem Served.settled_message (S : Served h σ) (waited : Now part σ) {now clock : Int} {m : Msg β}
    {rest : List (Msg β)} (nobody : σ.server.pending = none)
    (mailbox : σ.server.mailbox = m :: rest)
    (run : Server.run σ.server.state σ.server.timers now clock (.message m) = some ran) :
    Settled frame (h ++ ran.out.map .server) w := by
  have empty : part = [] := by
    unfold Now at waited
    rwa [nobody] at waited
  obtain ⟨done, serving, calls, replied, waiting⟩ := S.calls
  rw [nobody] at waiting
  cases waiting
  by_cases isCall : ∃ pid call, m = .call pid call
  · obtain ⟨pid, call, rfl⟩ := isCall
    have first : called (serverLabels h) = done ++ (pid, call) :: mailCalls rest := by
      rw [calls, mailbox]
      simp [mailCalls]
    obtain rfl := Option.some.inj run
    have handles := handleCall_handles σ.server.state σ.server.timers pid clock call
    refine S.settled_other wire carried empty first replied.length_eq handles
      fun free data timeout same => ?_
    subst same
    exact absurd free (by simp [handleCall, callPort])
  · have silent := run_silent run fun pid call same => isCall ⟨pid, call, same⟩
    exact S.settled wire carried empty silent.1

/-- The port answers the callback that waits. -/
theorem Served.settled_response (S : Served h σ) (frames : σ.server.state.framer.Frames frame)
    (waited : Now part σ) {now clock : Int} {p : Pending β} {r : Response β}
    {rest : List (Msg β)} (next : Server.next σ.server = some (.response p r, rest))
    (run : Server.run σ.server.state σ.server.timers now clock (.response p r) = some ran) :
    Settled frame (h ++ ran.out.map .server) w := by
  obtain ⟨waits, mem⟩ := mem_responses_of_next next
  obtain ⟨done, serving, calls, replied, waiting⟩ := S.calls
  rw [waits] at waiting
  obtain ⟨⟨pid, call⟩, _, ⟨caller, serves⟩, last, rfl⟩ := List.forall₂_cons_right_iff.mp waiting
  cases last
  have first : called (serverLabels h) = done ++ (pid, call) :: mailCalls σ.server.mailbox := by
    rw [calls]
    simp
  have handles := resume_handles run serves ((S.serving p waits).2 r mem)
  rw [caller] at handles
  have coherent := (S.aligned.response next).2.1
  unfold Now at waited
  rw [waits] at waited
  cases serves with
  | write data timeout framer fromPid =>
    obtain rfl : framer = σ.server.state.framer := coherent
    obtain rfl := Option.some.inj run
    have sent : Part (frame data) part σ := by
      rw [← frames data]
      exact waited
    have carries : Carried frame part (.write data timeout, .port r) :=
      ⟨sent.front, fun told => sent.whole (Reply.port.inj told ▸ mem)⟩
    exact settled_reply wire carried first replied.length_eq
      (congrArg (fun who => [(who, _)]) caller) carries
  | _ => exact S.settled_other wire carried waited first replied.length_eq handles fun _ => by simp

end

/-- **A turn** closes the account of the call that it replies to. -/
theorem Sent.turn (S : Sent frame h w σ) {now clock : Int}
    (took : step σ (.turn now clock) = some (σ', out)) : Sent frame (h ++ out) w σ' := by
  have served := step_served S.served took
  obtain ⟨taken, rest, ran, next, run, rfl, rfl⟩ := step_turn took
  have goes := turn_of_run run
  have keeps := S.keeps next
  obtain ⟨parts, part, wire, carried, waited⟩ := S.parts
  obtain ⟨before, m, behind, mailbox, rfl, -, -, idle, none, takes⟩ := S.served.aligned.next next
  have settled : Settled frame (h ++ ran.out.map .server) w := by
    rcases next_eq_some next with ⟨m, rfl, nobody, mailbox⟩ | ⟨p, r, -, -, rfl, -⟩
    · exact S.served.settled_message wire carried waited nobody mailbox run
    · exact S.served.settled_response wire carried S.frames waited next run
  obtain ⟨parts', wire', carried'⟩ := settled
  refine ⟨served, ?_, fun pid call inside => ?_, goes.keepsFraming keeps, parts', [],
    by rw [wire', List.append_nil], carried', now_nil idle none⟩
  · refine goes.frames keeps (fun p r same => ?_) S.frames
    subst same
    exact (S.served.aligned.response next).2.1
  · refine S.calls pid call ?_
    rw [mailbox]
    exact (List.mem_append.mp inside).elim (List.mem_append_left _)
      fun later => List.mem_append_right _ (List.mem_cons_of_mem _ later)

/-! ## Every step -/

/-- **Every step** keeps the account of what is on the wire. -/
theorem step_sent (S : Sent frame h w σ) {e : Event β} (keeps : e.keepsFraming = true)
    (took : step σ e = some (σ', out)) : Sent frame (h ++ out) (w ++ wire σ e) σ' := by
  have served := step_served S.served took
  cases e with
  | request os => exact S.request took
  | process os => exact S.process took
  | turn now clock =>
    rw [show wire σ (.turn now clock) = [] from rfl, List.append_nil]
    exact S.turn took
  | call fromPid c =>
    rw [show wire σ (.call fromPid c) = [] from rfl, List.append_nil]
    cases step_cases took with
    | call =>
      have quiet := responses_arrived (σ := σ) (m := .call fromPid c) (by simp)
      refine S.arrived served rfl rfl rfl rfl rfl quiet fun pid c' same => ?_
      obtain ⟨-, rfl⟩ := Msg.call.inj same
      exact keeps
  | expire tref =>
    rw [show wire σ (.expire tref) = [] from rfl, List.append_nil]
    cases step_cases took with
    | expire =>
      exact S.arrived served rfl rfl rfl rfl rfl (responses_arrived (by simp)) (by simp)
  | deliver =>
    rw [show wire σ .deliver = [] from rfl, List.append_nil]
    cases step_cases took with
    | @deliver o rest stdout =>
      refine S.arrived served rfl rfl rfl rfl rfl (congrArg responses (incoming_deliver stdout)) ?_
      intro pid c same
      exact absurd same (by cases o <;> simp [msg])

/-! ## Every run -/

/-- The two processes, and all that the device has taken. -/
structure Tapped (β : Type) where
  system : System β
  taken : List UInt8 := []

def Tapped.step (τ : Tapped β) (e : Event β) : Option (Tapped β × List (Label β)) :=
  match System.step τ.system e with
  | none => none
  | some (σ, out) => some (⟨σ, τ.taken ++ wire τ.system e⟩, out)

omit [Octet β] in
theorem sent_init {f₀ : Framer β} (rest : AtRest f₀ σ) :
    Sent (fun data => (f₀.addFraming data).1) [] [] σ := by
  have incoming : σ.incoming = [] := by simp [System.incoming, rest.mailbox, rest.stdout]
  have quiet : responses σ.incoming = [] := by rw [incoming]; rfl
  have served : Served [] σ := by
    refine ⟨Quiet.aligned ⟨rest.stdin, rest.idle, quiet⟩ rest.waits, rest.silent,
      ⟨[], [], ?_, .nil, ?_⟩, fun p waits => absurd waits (by simp [rest.waits])⟩
    · rw [rest.mailbox]
      rfl
    · rw [rest.waits]
      exact .nil
  exact ⟨served, by rw [rest.framer]; exact fun _ => rfl, by simp [rest.mailbox],
    by simp [rest.waits], [], [], rfl, .nil, now_nil rest.idle quiet⟩

/-- **What is on the wire.** The two are at rest, at the start or between two calls. From then on
calls of any processes come in any order, among notifications and timers: ports are opened, closed
and flushed, but no `open` or `configure` has a `:framing` option, so that the framer that was there
adds the same to every write. The device takes of each write as much as it likes, or fails. What it
has taken, in all, is one part for each call that has its reply, in the order of the calls, and one
for the call that waits. A write that was answered with `:ok` has the whole of its framed data there,
and any other write the front of it; a call that is no write has nothing. -/
theorem on_the_wire {f₀ : Framer β} {σ₀ : System β} (rest : AtRest f₀ σ₀) {h : List (Label β)}
    {τ : Tapped β}
    (r : Reach Tapped.step (fun _ _ e => e.keepsFraming = true) ⟨σ₀, []⟩ h τ) :
    ∃ parts part, τ.taken = parts.flatten ++ part ∧
      List.Forall₂ (Carried fun data => (f₀.addFraming data).1) parts
        (answered (serverLabels h)) ∧
      Now part τ.system := by
  have sent : Sent (fun data => (f₀.addFraming data).1) h τ.taken τ.system := by
    apply r.invariant (I := fun h τ =>
      Sent (fun data => (f₀.addFraming data).1) h τ.taken τ.system)
    · exact sent_init rest
    · intro h τ e τ' out S keeps took
      unfold Tapped.step at took
      split at took
      · exact absurd took (by simp)
      · next σ' out' stepped =>
        obtain ⟨rfl, rfl⟩ := Prod.mk.inj (Option.some.inj took)
        exact step_sent S keeps stepped
  exact sent.parts

/-- From the start: a port is opened, two bytes are written one by one, with a signal in between,
and another write is begun. -/
def openedAndWritten : List (Event UInt8) :=
  [.call 7 (.open ttyS0 [.active false]), .turn 0 0, .request { opened := fun _ => .ok (3, .raw) },
    .deliver, .turn 0 0, .call 7 (.write [65, 66] 100), .call 8 (.write [67, 68] 100), .turn 0 0,
    .request { writes := [.ok 1] }, .process { writes := [.error .eintr, .ok 1] }, .deliver,
    .turn 0 0, .turn 0 0, .request { writes := [.ok 1] }]

theorem on_the_wire_fromStart :
    ∃ τ h, exec Tapped.step ⟨{}, []⟩ openedAndWritten = some (τ, h) ∧
      answered (serverLabels h) =
        [(.open ttyS0 [.active false], .port .ok), (.write [65, 66] 100, .port .ok)] ∧
      ∃ part, τ.taken = [65, 66] ++ part ∧ part <+: [67, 68] := by
  have keeps :
      permitted Tapped.step (fun _ e => e.keepsFraming) ⟨{}, []⟩ openedAndWritten = true := by
    decide
  cases ran : exec Tapped.step ⟨{}, []⟩ openedAndWritten with
  | none => exact absurd ran (by decide)
  | some r =>
    obtain ⟨parts, part, taken, carried, now⟩ :=
      on_the_wire atRest_init (Reach.of_permitted .start keeps ran)
    have two : answered (serverLabels r.2) =
        [(.open ttyS0 [.active false], .port .ok), (.write [65, 66] 100, .port .ok)] := by
      obtain rfl := Option.some.inj (ran.symm.trans rfl)
      rfl
    have waits : r.1.system.server.pending.map Pending.command = some (.write [67, 68] 100) := by
      obtain rfl := Option.some.inj (ran.symm.trans rfl)
      rfl
    rw [List.nil_append, two] at carried
    obtain _ | ⟨rfl, _ | ⟨⟨-, whole⟩, _ | _⟩⟩ := carried
    unfold Now at now
    rw [waits] at now
    refine ⟨r.1, r.2, rfl, two, part, ?_, now.front⟩
    rw [taken, whole rfl]
    rfl

end System

end CircuitsUart
