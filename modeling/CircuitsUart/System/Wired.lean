import CircuitsUart.Lib.Simulate
import CircuitsUart.Port.Encoded
import CircuitsUart.Port.Stdout
import CircuitsUart.System.Calls

/-!
# The two processes, joined by bytes

What `System` leaves out: a command is a term in the external format behind its length, read in
pieces into the buffer of `erlcmd` and decoded there; a message goes the other way, written in
pieces and put together by the port.

None of it can be seen. The process receives, sends and replies in the runs of the two exactly
what it does in the runs of `System`, as long as every request fits the buffer.

What the VM writes is a parameter, `toBinary`, with what is documented of it (`ToBinary`): the
version, and the tags of the command, each in some form. So the theorems hold for every VM whose
forms the program can read, and do not depend on which it prefers; only how long a request is does.

`Shows` is the relation between the two systems. The bytes in the pipes are commands and messages,
cut anywhere, and the part of a message that has not been written yet is counted with those that
have.
-/

set_option autoImplicit false

namespace CircuitsUart

open Lib Port Server

/-- The process, the C program and the bytes between them. -/
structure Wired where
  server : Server UInt8 := {}
  program : Program UInt8 := {}
  handler : Erlcmd := {}
  /-- what `erlcmd_process` has not read -/
  stdin : List UInt8 := []
  /-- what `erlcmd_send` has not written -/
  unsent : List UInt8 := []
  /-- what has been written and not delivered -/
  stdout : List UInt8 := []

namespace Wired

/-! ## Steps -/

inductive Event
  | call (fromPid : Pid) (call : Server.Call)
  | expire (tref : Tref)
  | turn (now clock : Int)
  /-- `erlcmd_process`, and what the OS answers the handlers that it calls -/
  | request (read : Erlcmd.Event) (oss : List (Os UInt8))
  | process (os : Os UInt8)
  | write (amount : Nat)
  | deliver

/-- The bytes of messages. -/
def frames (out : List (Out UInt8)) : List UInt8 := Erlcmd.stream (out.map Out.body)

/-- The calls of the request handler. -/
def dispatch : List Erlcmd → List (Os UInt8) → Program UInt8 →
    Option (Program UInt8 × List (Out UInt8))
  | [], [], p => some (p, [])
  | handler :: called, os :: oss, p =>
    match Encoded.handleElixirRequest os handler.buffer (p.enter os) with
    | some (.ok q) => (dispatch called oss { q with out := [] }).map fun r => (r.1, q.out ++ r.2)
    | _ => none
  | _, _, _ => none

section

variable (toBinary : Command → List UInt8)

/-- The server takes a step, and what it asks is sent as `:erlang.term_to_binary` has it. -/
def serverStep (σ : Wired) (e : Server.Event UInt8) :
    Option (Wired × List (Server.Label UInt8)) :=
  match Server.step σ.server e with
  | none => none
  | some (server, out) =>
    some ({ σ with
      server := server
      stdin := σ.stdin ++ Erlcmd.stream ((asked out).map toBinary) }, out)

/-- One step. The C program waits for `erlcmd_send` to return before it does anything else. -/
def step (σ : Wired) : Event → Option (Wired × List (Server.Label UInt8))
  | .call fromPid call => serverStep toBinary σ (.arrive (.call fromPid call))
  | .expire tref => serverStep toBinary σ (.expire tref)
  | .turn now clock => serverStep toBinary σ (.turn now clock)
  | .request read oss =>
    if σ.unsent = [] then
      match Erlcmd.step ⟨σ.handler, σ.stdin⟩ read with
      | none => none
      | some (stdin, called) =>
        match dispatch called oss σ.program with
        | none => none
        | some (program, out) =>
          some ({ σ with
            program := program
            handler := stdin.handler
            stdin := stdin.unread
            unsent := frames out }, [])
    else none
  | .process os =>
    if σ.unsent = [] then
      match σ.program.handle (.process os) with
      | .error _ => none
      | .ok q => some ({ σ with program := { q with out := [] }, unsent := frames q.out }, [])
    else none
  | .write amount =>
    if 0 < amount ∧ amount ≤ σ.unsent.length then
      some ({ σ with
        unsent := σ.unsent.drop amount
        stdout := σ.stdout ++ σ.unsent.take amount }, [])
    else none
  | .deliver =>
    match Erlcmd.nextMessage σ.stdout with
    | none => none
    | some (message, rest) =>
      match Out.ofMessage message with
      | none => none
      | some o => serverStep toBinary { σ with stdout := rest } (.arrive (System.msg o))

/-- What `:erlang.term_to_binary` is documented to do: the version, and then the tags of the
term, each in a form of the VM's choice. -/
def ToBinary : Prop :=
  ∀ command, Erlcmd.Fits (toBinary command) →
    ∃ b, toBinary command = 131 :: b ∧ Etf.WritesAll command.tags b

/-- A turn sends requests that fit the buffer of the C program. -/
def Asks (server : Server UInt8) (e : Server.Event UInt8) : Prop :=
  ∀ server' out, Server.step server e = some (server', out) →
    ∀ command ∈ asked out, Erlcmd.Fits (toBinary command)

/-- Requests fit the buffer, and `read` returns no more than it is asked for. -/
def Within (σ : Wired) : Event → Prop
  | .turn now clock => Asks toBinary σ.server (.turn now clock)
  | .request _ oss => ∀ os ∈ oss, Program.Os.Bounded os
  | .process os => Program.Os.Bounded os
  | _ => True

end

end Wired

namespace System

/-- The same, of the two processes joined by commands and messages. -/
def Within (toBinary : Command → List UInt8) (σ : System UInt8) : Event UInt8 → Prop
  | .turn now clock => Wired.Asks toBinary σ.server (.turn now clock)
  | .request os | .process os => Program.Os.Bounded os
  | _ => True

end System

namespace Wired

/-! ## What the bytes are -/

/-- The bytes between the processes are commands and messages. -/
structure Shows (toBinary : Command → List UInt8) (b : Wired) (σ : System UInt8) : Prop where
  server : σ.server = b.server
  program : σ.program = b.program
  stdin : Erlcmd.Between b.handler b.stdin (σ.stdin.map toBinary)
  stdout : b.stdout ++ b.unsent = frames σ.stdout
  sendable : ∀ o ∈ σ.stdout, o.Sendable
  served : ∃ h, System.Served h σ
  ok : σ.program.currentConfig.Ok

/-- A message of the C program is put into the mailbox. -/
theorem arrive_msg (server : Server UInt8) (o : Out UInt8) :
    Server.step server (.arrive (System.msg o)) =
      some ({ server with mailbox := server.mailbox ++ [System.msg o] },
        [.arrived (System.msg o)]) := by
  cases o <;> rfl

theorem frames_append (a b : List (Out UInt8)) : frames (a ++ b) = frames a ++ frames b := by
  rw [frames, List.map_append, Erlcmd.stream, List.flatMap_append]
  rfl

end Wired

/-- More requests come. -/
theorem Erlcmd.Between.append {handler : Erlcmd} {unread : List UInt8}
    {todo bodies : List (List UInt8)} (between : Erlcmd.Between handler unread todo)
    (fits : ∀ body ∈ bodies, Erlcmd.Fits body) :
    Erlcmd.Between handler (unread ++ Erlcmd.stream bodies) (todo ++ bodies) where
  sized := between.sized
  fits body inside := (List.mem_append.mp inside).elim (between.fits body) (fits body)
  stream := by
    rw [← List.append_assoc, between.stream]
    exact (List.flatMap_append ..).symm
  incomplete body first := by
    cases todo with
    | nil =>
      have empty := congrArg List.length between.stream
      rw [List.length_append, between.sized.length_held] at empty
      have zero : handler.index = 0 := by
        simp [Erlcmd.stream] at empty
        exact empty.1
      rw [zero]
      exact Nat.succ_pos _
    | cons => exact between.incomplete body first

namespace Wired

section

variable {toBinary : Command → List UInt8} {b : Wired} {σ σ' : System UInt8}
  (shows : Shows toBinary b σ)

include shows

/-- The server has taken a step. -/
theorem Shows.served_step {server : Server UInt8} {out : List (Server.Label UInt8)}
    (asks : ∀ command ∈ asked out, Erlcmd.Fits (toBinary command)) {stdout : List UInt8}
    {left : List (Out UInt8)} (still : ∀ o ∈ left, o ∈ σ.stdout)
    (bytes : stdout ++ b.unsent = frames left) (served : ∃ h, System.Served h σ')
    (after : σ' = { σ with server := server, stdin := σ.stdin ++ asked out, stdout := left }) :
    Shows toBinary { b with
      server := server
      stdin := b.stdin ++ Erlcmd.stream ((asked out).map toBinary)
      stdout := stdout } σ' := by
  subst after
  have fits : ∀ body ∈ (asked out).map toBinary, Erlcmd.Fits body := fun body inside => by
    obtain ⟨command, mine, rfl⟩ := List.mem_map.mp inside
    exact asks command mine
  have more := shows.stdin.append fits
  rw [← List.map_append] at more
  exact ⟨rfl, shows.program, more, bytes, fun o inside => shows.sendable o (still o inside),
    served, shows.ok⟩

/-- The C program has handled an event, and nothing was left to be written. -/
theorem Shows.handled (written : b.unsent = []) {e : Program.Event UInt8} {q : Program UInt8}
    (handled : σ.program.handle e = .ok q) (bounded : Program.Os.Bounded e.os)
    (idle : ∀ os command, e = .request os command → σ.program.pending = false)
    {handler : Erlcmd} {stdin : List UInt8} (left : List Command)
    (between : Erlcmd.Between handler stdin (left.map toBinary))
    (served : ∃ h, System.Served h σ')
    (after : σ' = { σ with
      program := { q with out := [] }, stdin := left, stdout := σ.stdout ++ q.out }) :
    Shows toBinary { b with
      program := { q with out := [] }
      handler := handler
      stdin := stdin
      unsent := frames q.out } σ' := by
  subst after
  have last : ∀ os, e = .process os → ∃ command, Program.Serving command σ.program := by
    rintro os rfl
    obtain ⟨h, S⟩ := shows.served
    cases waits : σ.server.pending with
    | some p => exact ⟨p.command, (S.serving p waits).1⟩
    | none => exact ⟨.close, .of_idle (S.aligned.quiet waits).idle S.silent⟩
  have bytes := shows.stdout
  rw [written, List.append_nil] at bytes
  refine ⟨shows.server, rfl, between, ?_, fun o inside => ?_, served,
    (Program.handle_complete handled shows.ok).1⟩
  · rw [frames_append, ← bytes]
  · rcases List.mem_append.mp inside with earlier | now
    · exact shows.sendable o earlier
    · exact Program.handle_sendable handled shows.ok last idle bounded now

/-- What the server does, it does in both. -/
theorem Shows.server_step {e : Server.Event UInt8} {e' : System.Event UInt8}
    (same : System.step σ e' = System.serverStep σ e) (asks : Asks toBinary b.server e)
    {server : Server UInt8} {out : List (Server.Label UInt8)}
    (took : Server.step b.server e = some (server, out)) :
    ∃ b' σ', serverStep toBinary b e = some (b', out) ∧
      System.step σ e' = some (σ', out.map .server) ∧ Shows toBinary b' σ' := by
  have typed : System.step σ e' =
      some ({ σ with server := server, stdin := σ.stdin ++ asked out }, out.map .server) := by
    rw [same, System.serverStep, shows.server, took]
  obtain ⟨h, S⟩ := shows.served
  refine ⟨_, _, by rw [serverStep, took], typed, ?_⟩
  exact shows.served_step (asks server out took) (fun _ => id) shows.stdout
    ⟨_, System.step_served S typed⟩ rfl

/-- What is delivered has been sent. -/
theorem Shows.delivered {message rest : List UInt8}
    (next : Erlcmd.nextMessage b.stdout = some (message, rest)) :
    ∃ o left, σ.stdout = o :: left ∧ message = o.body ∧ rest ++ b.unsent = frames left := by
  cases hout : σ.stdout with
  | nil =>
    have none_there := shows.stdout
    rw [hout] at none_there
    rw [(List.append_eq_nil_iff.mp none_there).1] at next
    exact absurd next (by simp [Erlcmd.nextMessage, Etf.readSized, Etf.word, Etf.cut])
  | cons o left =>
    have short := o.body_short (shows.sendable o (by rw [hout]; exact List.mem_cons_self))
    have bytes := shows.stdout
    rw [hout] at bytes
    have bytes : b.stdout ++ b.unsent = Erlcmd.request o.body ++ frames left := bytes
    refine ⟨o, left, rfl, ?_⟩
    by_cases whole : o.body.length + 2 ≤ b.stdout.length
    · obtain ⟨later, split⟩ : Erlcmd.request o.body <+: b.stdout :=
        List.prefix_of_prefix_length_le (List.prefix_append _ (frames left))
          (bytes ▸ List.prefix_append _ _) (by simpa using whole)
      rw [← split, Erlcmd.nextMessage_request short] at next
      obtain ⟨rfl, rfl⟩ := Prod.mk.inj (Option.some.inj next)
      rw [← split, List.append_assoc] at bytes
      exact ⟨rfl, List.append_cancel_left bytes⟩
    · have part : b.stdout <+: Erlcmd.request o.body ++ frames left :=
        bytes ▸ List.prefix_append _ _
      rw [Erlcmd.nextMessage_part short part (by omega)] at next
      exact absurd next (by simp)

/-- A message that is delivered arrives in both. -/
theorem Shows.deliver {o : Out UInt8} {left : List (Out UInt8)} (sent : σ.stdout = o :: left)
    {rest : List UInt8} (next : Erlcmd.nextMessage b.stdout = some (o.body, rest))
    (bytes : rest ++ b.unsent = frames left) :
    ∃ b' σ', step toBinary b .deliver = some (b', [.arrived (System.msg o)]) ∧
      System.step σ .deliver = some (σ', [.server (.arrived (System.msg o))]) ∧
      Shows toBinary b' σ' := by
  have read := o.ofMessage_body (shows.sendable o (by rw [sent]; exact List.mem_cons_self))
  obtain ⟨h, S⟩ := shows.served
  have typed : System.step σ .deliver = some ({ σ with
      server := { b.server with mailbox := b.server.mailbox ++ [System.msg o] }
      stdin := σ.stdin ++ asked [.arrived (System.msg o)]
      stdout := left }, [.server (.arrived (System.msg o))]) := by
    simp only [System.step, sent, System.serverStep, shows.server, arrive_msg]
    rfl
  refine ⟨_, _, by simp only [step, next, read, serverStep, arrive_msg]; rfl, typed, ?_⟩
  exact shows.served_step (by simp [asked])
    (fun o' inside => by rw [sent]; exact List.mem_cons_of_mem _ inside) bytes
    ⟨_, System.step_served S typed⟩ rfl

/-- A request in the buffer is handled as the command. -/
theorem Shows.request (writes : ToBinary toBinary) {command : Command} {rest : List Command}
    (asks : σ.stdin = command :: rest) {handler : Erlcmd}
    (atStart : handler.buffer.take ((toBinary command).length + 2) =
      Erlcmd.request (toBinary command)) (os : Os UInt8) (p : Program UInt8) :
    Encoded.handleElixirRequest os handler.buffer p = some (p.handleElixirRequest os command) := by
  have fits := shows.stdin.fits (toBinary command) (by rw [asks]; exact List.mem_cons_self)
  obtain ⟨bytes, whole, tags⟩ := writes command fits
  have size := fits.1
  rw [whole] at atStart size
  rw [← List.take_append_drop ((131 :: bytes).length + 2) handler.buffer, atStart]
  exact Encoded.handleElixirRequest_written os command tags
    (by rw [List.length_cons] at size; omega) _ _ _ p

end

end Wired

end CircuitsUart
