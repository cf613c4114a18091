import CircuitsUart.System.Wired

/-!
# The bytes between the two processes are not seen

A step of `Wired` is matched by steps of `System` that show the server the same, and the other way
round. Pieces of a request and pieces of a message are matched by no step at all; a step of
`System` is matched once all that was written has come out.

The two directions are two simulations (`Lib.Simulate`) with one relation, `Shows`. A step of `Wired`
is a step of `System` or none. A step of `System` is answered by a run of `Wired`, and not from where
that is but from where it can be brought: first what is left to be written comes out (`Shows.flush`),
and a request is read in one piece (`Shows.whole_request`). That the server sees nothing of this is
why a run may be answered by a run.

That the histories are the same then follows without looking at either system again, and so does
what is true of requests: that the one in the buffer is the one that was sent last.
-/

set_option autoImplicit false

namespace CircuitsUart

open Lib Port Server

/-- What has been read is no longer in the pipe. -/
theorem Erlcmd.unread_of_read {σ σ' : Erlcmd.Stdin} {amount : Nat} {called : List Erlcmd}
    (took : Erlcmd.step σ (.read amount) = some (σ', called)) :
    σ'.unread = σ.unread.drop amount := by
  unfold Erlcmd.step at took
  dsimp only at took
  split at took
  · split at took
    · obtain ⟨rfl, -⟩ := Prod.mk.inj (Option.some.inj took)
      rfl
    · exact absurd took (by simp)
  · exact absurd took (by simp)

namespace System

theorem request_step {σ : System UInt8} {command : Command} {rest : List Command}
    (asks : σ.stdin = command :: rest) {os : Os UInt8} {q : Program UInt8}
    (handled : σ.program.handle (.request os command) = .ok q) :
    System.step σ (.request os) =
      some ({ σ with
        program := { q with out := [] }, stdin := rest, stdout := σ.stdout ++ q.out },
        [.dispatched command, .input (σ.program.input (.request os command))]) := by
  simp only [System.step, asks, portStep, handled]

theorem process_step {σ : System UInt8} {os : Os UInt8} {q : Program UInt8}
    (handled : σ.program.handle (.process os) = .ok q) :
    System.step σ (.process os) =
      some ({ σ with program := { q with out := [] }, stdout := σ.stdout ++ q.out },
        [.input (σ.program.input (.process os))]) := by
  simp only [System.step, portStep, handled]

end System

namespace Wired

variable (toBinary : Command → List UInt8)

/-- The processes and the bytes between them, as far as the server can tell. -/
def machine : Machine Wired Event (Server.Label UInt8) (Server.Label UInt8) :=
  ⟨step toBinary, Within toBinary, some⟩

/-- The processes and what is between them. -/
def typed : Machine (System UInt8) (System.Event UInt8) (System.Label UInt8)
    (Server.Label UInt8) :=
  ⟨System.step, System.Within toBinary, System.Label.server?⟩

variable {toBinary} {b : Wired} {σ : System UInt8}

/-! ## Requests -/

/-- The C program has handled the request that was waiting. -/
theorem Shows.request_step (shows : Shows toBinary b σ) (written : b.unsent = [])
    {command : Command} (asks : σ.stdin = [command]) {os : Os UInt8}
    (bounded : Program.Os.Bounded os) {q : Program UInt8} (handled : σ.program.handle (.request os command) = .ok q)
    {handler : Erlcmd} {stdin : List UInt8} (between : Erlcmd.Between handler stdin []) :
    ∃ σ' k, (typed toBinary).Run σ k σ' ∧ k.filterMap System.Label.server? = [] ∧
      Shows toBinary { b with
        program := { q with out := [] }
        handler := handler
        stdin := stdin
        unsent := frames q.out } σ' := by
  have took := System.request_step asks handled
  obtain ⟨h, S⟩ := shows.served
  refine ⟨_, _, (typed toBinary).one (.request os) bounded took, rfl, ?_⟩
  exact shows.handled written handled bounded (fun _ _ _ => (S.aligned.asked asks).2.1) [] between
    ⟨_, System.step_served S took⟩ rfl

/-- The OS answers each call of the handler. -/
theorem dispatch_length {called : List Erlcmd} {oss : List (Os UInt8)} {p : Program UInt8}
    {r : Program UInt8 × List (Out UInt8)} (took : dispatch called oss p = some r) :
    oss.length = called.length := by
  induction called generalizing oss p r with
  | nil =>
    cases oss with
    | nil => rfl
    | cons => exact absurd took (by simp [dispatch])
  | cons handler called ih =>
    cases oss with
    | nil => exact absurd took (by simp [dispatch])
    | cons os oss =>
      rw [dispatch] at took
      split at took
      · obtain ⟨r', others, -⟩ := Option.map_eq_some_iff.mp took
        exact congrArg (· + 1) (ih others)
      · exact absurd took (by simp)

/-- One request in the buffer. -/
theorem dispatch_one {handler : Erlcmd} {os : Os UInt8} {p : Program UInt8}
    {handled : Except Stop (Program UInt8)}
    (took : Encoded.handleElixirRequest os handler.buffer (p.enter os) = some handled) :
    dispatch [handler] [os] p = handled.toOption.map fun q => ({ q with out := [] }, q.out) := by
  cases handled <;> simp [dispatch, took, Except.toOption]

/-- The calls of the handler are for requests that wait: at most one. -/
theorem Shows.dispatched (shows : Shows toBinary b σ) (writes : ToBinary toBinary)
    {called : List Erlcmd} {done todo : List (List UInt8)}
    (split : σ.stdin.map toBinary = done ++ todo) (Called : Erlcmd.Called called done) :
    (called = [] ∧ todo = σ.stdin.map toBinary) ∨
      ∃ command handler, σ.stdin = [command] ∧ called = [handler] ∧ todo = [] ∧
        ∀ os, Encoded.handleElixirRequest os handler.buffer (b.program.enter os) =
          some (σ.program.handle (.request os command)) := by
  obtain ⟨h, S⟩ := shows.served
  cases Called with
  | nil => exact .inl ⟨rfl, split.symm⟩
  | @cons handler body called done atStart others =>
    cases asks : σ.stdin with
    | nil =>
      rw [asks] at split
      exact absurd split (by simp)
    | cons command rest =>
      obtain ⟨rfl, -⟩ := S.aligned.asked asks
      rw [asks] at split
      obtain ⟨rfl, nothing⟩ := List.cons.inj split
      obtain ⟨rfl, rfl⟩ := List.append_eq_nil_iff.mp nothing.symm
      cases others
      refine .inr ⟨command, handler, rfl, rfl, rfl, fun os => ?_⟩
      rw [shows.request writes asks atStart.2, shows.program]
      rfl

/-! ## The server -/

theorem asks_nothing (server : Server UInt8) {e : Server.Event UInt8}
    (other : ∀ now clock, e ≠ .turn now clock) : Asks toBinary server e := by
  intro server' out took
  rcases Server.step_cases took with ⟨m, -, -, rfl, -⟩ | ⟨tref, -, -, rfl, -⟩ |
    ⟨now, clock, -, -, -, same, -⟩
  · simp [asked]
  · simp [asked]
  · exact absurd same (other now clock)

theorem serverLabels_map (out : List (Server.Label UInt8)) :
    (out.map System.Label.server).filterMap System.Label.server? = out := by
  simp [System.Label.server?, List.filterMap_map, Function.comp_def]

/-- A step of the server in the one is a step of the server in the other. -/
theorem Shows.server_of_wired (shows : Shows toBinary b σ) (e : Server.Event UInt8)
    (e' : System.Event UInt8) (same : System.step σ e' = System.serverStep σ e)
    (asks : Asks toBinary b.server e) (within : System.Within toBinary σ e') {b' : Wired}
    {out : List (Server.Label UInt8)} (took : serverStep toBinary b e = some (b', out)) :
    ∃ σ' k, (typed toBinary).Run σ k σ' ∧ k.filterMap System.Label.server? = out ∧
      Shows toBinary b' σ' := by
  cases stepped : Server.step b.server e with
  | none =>
    rw [serverStep, stepped] at took
    exact absurd took (by simp)
  | some r =>
    obtain ⟨b₁, σ₁, took₁, took₂, shows₁⟩ := shows.server_step same asks stepped
    obtain ⟨rfl, rfl⟩ := Prod.mk.inj (Option.some.inj (took₁.symm.trans took))
    exact ⟨σ₁, _, (typed toBinary).one e' within took₂, serverLabels_map _, shows₁⟩

theorem Shows.server_of_typed (shows : Shows toBinary b σ) (e : Server.Event UInt8)
    (e' : System.Event UInt8) (same : System.step σ e' = System.serverStep σ e)
    (asks : Asks toBinary b.server e) {σ' : System UInt8} {out : List (System.Label UInt8)}
    (took : System.step σ e' = some (σ', out)) :
    ∃ b', serverStep toBinary b e = some (b', out.filterMap System.Label.server?) ∧
      Shows toBinary b' σ' := by
  cases stepped : Server.step b.server e with
  | none =>
    rw [same, System.serverStep, shows.server, stepped] at took
    exact absurd took (by simp)
  | some r =>
    obtain ⟨b₁, σ₁, took₁, took₂, shows₁⟩ := shows.server_step same asks stepped
    obtain ⟨rfl, rfl⟩ := Prod.mk.inj (Option.some.inj (took₂.symm.trans took))
    rw [serverLabels_map]
    exact ⟨b₁, took₁, shows₁⟩

/-! ## Every step -/

/-- **A step of `Wired` is matched.** -/
theorem Shows.wired_step (shows : Shows toBinary b σ) (writes : ToBinary toBinary) {e : Event}
    (within : Within toBinary b e) {b' : Wired} {out : List (Server.Label UInt8)}
    (took : step toBinary b e = some (b', out)) :
    ∃ σ' k, (typed toBinary).Run σ k σ' ∧ k.filterMap System.Label.server? = out ∧
      Shows toBinary b' σ' := by
  cases e with
  | call fromPid call =>
    exact shows.server_of_wired (.arrive (.call fromPid call)) (.call fromPid call) rfl
      (asks_nothing _ (by simp)) trivial took
  | expire tref =>
    exact shows.server_of_wired (.expire tref) (.expire tref) rfl (asks_nothing _ (by simp))
      trivial took
  | turn now clock =>
    exact shows.server_of_wired (.turn now clock) (.turn now clock) rfl within
      (show Asks toBinary σ.server _ from shows.server ▸ within) took
  | request read oss =>
    simp only [step] at took
    split at took
    · next written =>
      split at took
      · exact absurd took (by simp)
      · next stdin called processed =>
        split at took
        · exact absurd took (by simp)
        · next program sent dispatched =>
          obtain ⟨rfl, rfl⟩ := Prod.mk.inj (Option.some.inj took)
          have possible : read.Possible ⟨b.handler, b.stdin⟩ := by
            by_contra impossible
            unfold Erlcmd.step at processed
            rw [if_neg impossible] at processed
            exact absurd processed (by simp)
          obtain ⟨done, todo, stdin', called', split, processed', Called, between⟩ :=
            shows.stdin.step (σ := ⟨b.handler, b.stdin⟩) possible
          obtain ⟨rfl, rfl⟩ := Prod.mk.inj (Option.some.inj (processed.symm.trans processed'))
          rcases shows.dispatched writes split Called with
            ⟨rfl, rfl⟩ | ⟨command, handler, asks, rfl, rfl, handles⟩
          · obtain rfl := List.length_eq_zero_iff.mp (dispatch_length dispatched)
            obtain ⟨rfl, rfl⟩ := Prod.mk.inj (Option.some.inj dispatched)
            refine ⟨σ, [], .start, rfl, ⟨shows.server, shows.program, between, ?_,
              shows.sendable, shows.served, shows.ok⟩⟩
            have bytes := shows.stdout
            rwa [written] at bytes
          · obtain ⟨os, rfl⟩ := List.length_eq_one_iff.mp (dispatch_length dispatched)
            rw [dispatch_one (handles os)] at dispatched
            cases handled : σ.program.handle (.request os command) with
            | error =>
              rw [handled] at dispatched
              exact absurd dispatched (by simp [Except.toOption])
            | ok q =>
              rw [handled] at dispatched
              obtain ⟨rfl, rfl⟩ := Prod.mk.inj (Option.some.inj dispatched)
              exact shows.request_step written asks (within os List.mem_cons_self) handled between
    · exact absurd took (by simp)
  | process os =>
    simp only [step] at took
    split at took
    · next written =>
      split at took
      · exact absurd took (by simp)
      · next q handled =>
        obtain ⟨rfl, rfl⟩ := Prod.mk.inj (Option.some.inj took)
        rw [← shows.program] at handled
        have stepped := System.process_step handled
        obtain ⟨h, S⟩ := shows.served
        refine ⟨_, _, (typed toBinary).one (.process os) within stepped, rfl, ?_⟩
        exact shows.handled written handled within (fun _ _ => by simp) σ.stdin shows.stdin
          ⟨_, System.step_served S stepped⟩ rfl
    · exact absurd took (by simp)
  | write amount =>
    simp only [step] at took
    split at took
    · obtain ⟨rfl, rfl⟩ := Prod.mk.inj (Option.some.inj took)
      refine ⟨σ, [], .start, rfl, ⟨shows.server, shows.program, shows.stdin, ?_,
        shows.sendable, shows.served, shows.ok⟩⟩
      rw [List.append_assoc, List.take_append_drop]
      exact shows.stdout
    · exact absurd took (by simp)
  | deliver =>
    have arrives := took
    simp only [step] at arrives
    split at arrives
    · exact absurd arrives (by simp)
    · next message rest next =>
      obtain ⟨o, left, sent, rfl, bytes⟩ := shows.delivered next
      obtain ⟨b₁, σ₁, took₁, took₂, shows₁⟩ := shows.deliver sent next bytes
      obtain ⟨rfl, rfl⟩ := Prod.mk.inj (Option.some.inj (took₁.symm.trans took))
      exact ⟨σ₁, _, (typed toBinary).one .deliver trivial took₂, rfl, shows₁⟩

/-- What is left to be written comes out. -/
theorem Shows.flush (shows : Shows toBinary b σ) :
    ∃ b', (machine toBinary).Run b [] b' ∧ b'.unsent = [] ∧ b'.program = b.program ∧
      b'.server = b.server ∧ Shows toBinary b' σ := by
  by_cases written : b.unsent = []
  · exact ⟨b, .start, written, rfl, rfl, shows⟩
  · have some_bytes := List.length_pos_of_ne_nil written
    have took : step toBinary b (.write b.unsent.length) =
        some ({ b with unsent := [], stdout := b.stdout ++ b.unsent }, []) := by
      rw [step, if_pos ⟨some_bytes, Nat.le_refl _⟩, List.drop_length, List.take_length]
    refine ⟨_, (machine toBinary).one (.write b.unsent.length) trivial took, rfl, rfl, rfl,
      ⟨shows.server, shows.program, shows.stdin, ?_, shows.sendable, shows.served, shows.ok⟩⟩
    rw [List.append_nil]
    exact shows.stdout

/-- The request that waits can be read in one piece. -/
theorem Shows.whole_request (shows : Shows toBinary b σ) (writes : ToBinary toBinary)
    {command : Command} (asks : σ.stdin = [command]) :
    ∃ handler handler', Erlcmd.step ⟨b.handler, b.stdin⟩ (.read b.stdin.length) =
        some (⟨handler', []⟩, [handler]) ∧
      Erlcmd.Between handler' [] [] ∧
      ∀ os, Encoded.handleElixirRequest os handler.buffer (b.program.enter os) =
        some (σ.program.handle (.request os command)) := by
  have between := shows.stdin
  rw [asks] at between
  have fits := between.fits (toBinary command) List.mem_cons_self
  have incomplete := between.incomplete (toBinary command) rfl
  have length := congrArg List.length between.stream
  simp only [List.length_append, between.sized.length_held, Erlcmd.stream, List.map_cons,
    List.map_nil, List.flatMap_cons, List.flatMap_nil, List.append_nil,
    Erlcmd.length_request] at length
  have possible : (Erlcmd.Event.read b.stdin.length).Possible ⟨b.handler, b.stdin⟩ := by
    refine ⟨by omega, Nat.le_refl _, ?_⟩
    have room := fits.2
    show b.stdin.length ≤ ERLCMD_BUF_SIZE - b.handler.index
    omega
  obtain ⟨done, todo, stdin, called, split, processed, Called, rest⟩ :=
    shows.stdin.step (σ := ⟨b.handler, b.stdin⟩) possible
  have empty : stdin.unread = [] := by
    rw [Erlcmd.unread_of_read processed]
    exact List.drop_length
  rw [empty] at rest
  obtain ⟨rfl, -⟩ := rest.finished
  rcases shows.dispatched writes split Called with
    ⟨rfl, nothing⟩ | ⟨command', handler, asks', rfl, -, handles⟩
  · rw [asks] at nothing
    exact absurd nothing (by simp)
  · obtain rfl := List.head_eq_of_cons_eq (asks.symm.trans asks')
    refine ⟨handler, stdin.handler, ?_, rest, handles⟩
    rw [processed, ← empty]

/-- **A step of `System` is matched**, once all that was written has come out. -/
theorem Shows.system_step (shows : Shows toBinary b σ) (writes : ToBinary toBinary)
    {e : System.Event UInt8} (within : System.Within toBinary σ e) {σ' : System UInt8}
    {out : List (System.Label UInt8)} (took : System.step σ e = some (σ', out))
    (written : b.unsent = []) :
    ∃ b', (machine toBinary).Run b (out.filterMap System.Label.server?) b' ∧
      Shows toBinary b' σ' := by
  cases e with
  | call fromPid call =>
    obtain ⟨b', stepped, shows'⟩ := shows.server_of_typed (.arrive (.call fromPid call))
      (.call fromPid call) rfl (asks_nothing _ (by simp)) took
    exact ⟨b', (machine toBinary).one (.call fromPid call) trivial stepped, shows'⟩
  | expire tref =>
    obtain ⟨b', stepped, shows'⟩ := shows.server_of_typed (.expire tref) (.expire tref) rfl
      (asks_nothing _ (by simp)) took
    exact ⟨b', (machine toBinary).one (.expire tref) trivial stepped, shows'⟩
  | turn now clock =>
    have asks : Asks toBinary b.server (.turn now clock) := shows.server ▸ within
    obtain ⟨b', stepped, shows'⟩ := shows.server_of_typed (.turn now clock) (.turn now clock) rfl
      asks took
    exact ⟨b', (machine toBinary).one (.turn now clock) asks stepped, shows'⟩
  | request os =>
    cases System.step_cases took with
    | @request _ command rest q asks handled =>
      obtain ⟨h, S⟩ := shows.served
      obtain ⟨rfl, idle, -⟩ := S.aligned.asked asks
      obtain ⟨handler, handler', processed, between, handles⟩ := shows.whole_request writes asks
      have dispatched := dispatch_one (handles os)
      rw [handled] at dispatched
      have stepped : step toBinary b (.request (.read b.stdin.length) [os]) = some ({ b with
          program := { q with out := [] }
          handler := handler'
          stdin := []
          unsent := frames q.out }, []) := by
        simp only [step, if_pos written, processed, dispatched, Except.toOption, Option.map_some]
      refine ⟨_, (machine toBinary).one (.request (.read b.stdin.length) [os]) ?_ stepped, ?_⟩
      · intro os' inside
        rwa [List.mem_singleton.mp inside]
      · exact shows.handled written handled within (fun _ _ _ => idle) [] between
          ⟨_, System.step_served S took⟩ rfl
  | process os =>
    cases System.step_cases took with
    | @process _ q handled =>
      obtain ⟨h, S⟩ := shows.served
      have stepped : step toBinary b (.process os) = some ({ b with
          program := { q with out := [] }, unsent := frames q.out }, []) := by
        rw [shows.program] at handled
        simp only [step, if_pos written, handled]
      refine ⟨_, (machine toBinary).one (.process os) within stepped, ?_⟩
      exact shows.handled written handled within (fun _ _ => by simp) σ.stdin shows.stdin
        ⟨_, System.step_served S took⟩ rfl
  | deliver =>
    cases System.step_cases took with
    | @deliver o left sent =>
      have short := o.body_short (shows.sendable o (by rw [sent]; exact List.mem_cons_self))
      have bytes : b.stdout = Erlcmd.request o.body ++ frames left := by
        have all := shows.stdout
        rwa [written, List.append_nil, sent] at all
      have next : Erlcmd.nextMessage b.stdout = some (o.body, frames left) := by
        rw [bytes, Erlcmd.nextMessage_request short]
      obtain ⟨b', σ₁, stepped, took', shows'⟩ := shows.deliver sent next (by simp [written])
      obtain ⟨rfl, -⟩ := Prod.mk.inj (Option.some.inj (took'.symm.trans took))
      exact ⟨b', (machine toBinary).one .deliver trivial stepped, shows'⟩

/-! ## `term_to_binary` -/

/-- A request, but for the integers that no `long` holds and for what no buffer does. -/
def termToBinary (command : Command) : List UInt8 :=
  if ∀ tag ∈ command.tags, Ei.Encodable tag then
    131 :: command.tags.flatMap Ei.encodeTag
  else List.replicate ERLCMD_BUF_SIZE 0

theorem toBinary_termToBinary : ToBinary termToBinary := by
  intro command fits
  unfold termToBinary at fits ⊢
  split
  · next encodable => exact ⟨_, rfl, Ei.writesAll_encodeTag encodable⟩
  · next too_large =>
    rw [if_neg too_large] at fits
    have room := fits.2
    rw [List.length_replicate] at room
    omega

/-! ## Every run -/

theorem shows_init (toBinary : Command → List UInt8) : Shows toBinary {} {} where
  server := rfl
  program := rfl
  stdin := .of_empty ⟨List.length_replicate, Nat.zero_le _⟩ rfl
    fun _ inside => absurd inside List.not_mem_nil
  stdout := rfl
  sendable _ inside := absurd inside List.not_mem_nil
  served := ⟨[], System.served_init⟩
  ok := uartDefaultConfig_ok

theorem typed_simulates (writes : ToBinary toBinary) :
    Simulates (machine toBinary) (typed toBinary) (Shows toBinary) := by
  intro b σ e b' out shows within took
  obtain ⟨σ', k, ran, seen, shows'⟩ := shows.wired_step writes within took
  exact ⟨σ', k, ran, seen.trans (List.filterMap_some ..).symm, shows'⟩

theorem wired_simulates (writes : ToBinary toBinary) :
    Simulates (typed toBinary) (machine toBinary) fun σ b => Shows toBinary b σ := by
  intro σ b e σ' out shows within took
  obtain ⟨b₁, flushed, written, -, -, shows₁⟩ := shows.flush
  obtain ⟨b', ran, shows'⟩ := shows₁.system_step writes within took written
  exact ⟨b', _, flushed.trans ran, List.filterMap_some .., shows'⟩

/-- **The bytes are not seen.** Let requests be written as `:erlang.term_to_binary` is documented to
write them, in any of the forms, and fit the buffer of the C program; let the pipes cut everything
into pieces as they like. Then the process can receive, send and reply what it can when the two
processes hand each other commands and messages, and nothing else, and the same states of the
process and of the C program are reached. -/
theorem same_histories (writes : ToBinary toBinary) (h : List (Server.Label UInt8))
    (server : Server UInt8) (program : Program UInt8) :
    (∃ b, Reach (step toBinary) (fun _ => Within toBinary) {} h b ∧
        b.server = server ∧ b.program = program) ↔
      ∃ k σ, Reach System.step (fun _ => System.Within toBinary) {} k σ ∧
        System.serverLabels k = h ∧ σ.server = server ∧ σ.program = program := by
  constructor
  · rintro ⟨b, ran, rfl, rfl⟩
    obtain ⟨σ, k, ran', seen, shows⟩ :=
      (typed_simulates writes).run (shows_init toBinary) (h := h) ran
    exact ⟨k, σ, ran', seen.trans (List.filterMap_some ..), shows.server, shows.program⟩
  · rintro ⟨k, σ, ran, rfl, rfl, rfl⟩
    obtain ⟨b, h, ran', seen, shows⟩ := (wired_simulates writes).run (shows_init toBinary) ran
    have same : h = System.serverLabels k := (List.filterMap_some ..).symm.trans seen
    exact ⟨b, same ▸ ran', shows.server.symm, shows.program.symm⟩

/-- A turn that sends this. -/
theorem asks_of_step {server server' : Server UInt8} {e : Server.Event UInt8}
    {out : List (Server.Label UInt8)} (took : Server.step server e = some (server', out))
    (fits : ∀ command ∈ asked out, Erlcmd.Fits (toBinary command)) : Asks toBinary server e := by
  intro server₁ out₁ took₁
  obtain ⟨rfl, rfl⟩ := Prod.mk.inj (Option.some.inj (took.symm.trans took₁))
  exact fits

/-- Without a port there is nothing to drain. -/
theorem same_histories_drain :
    ∃ h b, Reach (step termToBinary) (fun _ => Within termToBinary) {} h b ∧
      replies h = [(7, .port (.error .ebadf))] := by
  have ran : ∃ k σ, Reach System.step (fun _ => System.Within termToBinary) {} k σ ∧
      replies (System.serverLabels k) = [(7, .port (.error .ebadf))] :=
    ⟨_, _,
      .step (e := (.turn 0 0 : System.Event UInt8))
        (.step (e := (.deliver : System.Event UInt8))
          (.step (e := (.request {} : System.Event UInt8))
            (.step (e := (.turn 0 0 : System.Event UInt8))
              (.step (e := (.call 7 .drain : System.Event UInt8)) .start trivial rfl)
              (asks_of_step rfl (by decide)) rfl)
            (fun _ inside => absurd inside List.not_mem_nil) rfl) trivial rfl)
        (asks_of_step rfl (by decide)) rfl, rfl⟩
  obtain ⟨k, σ, ran, replied⟩ := ran
  obtain ⟨b, ran', -⟩ := (same_histories toBinary_termToBinary (System.serverLabels k) σ.server
    σ.program).mpr ⟨k, σ, ran, rfl, rfl, rfl⟩
  exact ⟨_, b, ran', replied⟩

/-- At most one request is about, and the server waits for it. -/
theorem Shows.one_request (shows : Shows toBinary b σ) :
    σ.stdin = [] ∨
      ∃ command, σ.stdin = [command] ∧ ∃ p, b.server.pending = some p ∧ p.command = command := by
  obtain ⟨h, S⟩ := shows.served
  cases asks : σ.stdin with
  | nil => exact .inl rfl
  | cons command rest =>
    obtain ⟨rfl, -, -, waits⟩ := S.aligned.asked asks
    exact .inr ⟨command, rfl, shows.server ▸ waits⟩

/-- **What is read is what was asked.** In every state that the two processes come to, as long as
every request that the server sends fits the buffer and no `read` of the C program returns more than
it was asked for (`Within`):

* what is in the buffer and in the pipe fits the buffer;
* a message that the port has put together is one that the server understands;
* whatever `erlcmd_process` may read next, it returns, with space left in the buffer. If it calls
  the request handler, it does so once, and the handler finds the command that the callback of the
  server waits with: it goes on as the handler does on that command, and does not read or write
  outside of the memory it was given. -/
theorem request_understood (writes : ToBinary toBinary) {h : List (Server.Label UInt8)}
    (r : Reach (step toBinary) (fun _ => Within toBinary) {} h b) :
    b.handler.index + b.stdin.length ≤ ERLCMD_BUF_SIZE ∧
      (∀ message rest, Erlcmd.nextMessage b.stdout = some (message, rest) →
        ∃ o, Out.ofMessage message = some o) ∧
      ∀ read : Erlcmd.Event, read.Possible ⟨b.handler, b.stdin⟩ →
        ∃ stdin called, Erlcmd.step ⟨b.handler, b.stdin⟩ read = some (stdin, called) ∧
          stdin.handler.index < ERLCMD_BUF_SIZE ∧
          (called = [] ∨ ∃ handler p, called = [handler] ∧ b.server.pending = some p ∧
            ∀ os, Encoded.handleElixirRequest os handler.buffer (b.program.enter os) =
              some (b.program.handle (.request os p.command))) := by
  obtain ⟨σ, k, -, -, shows⟩ := (typed_simulates writes).run (shows_init toBinary) (h := h) r
  refine ⟨?_, fun message rest next => ?_, fun read possible => ?_⟩
  · have length := congrArg List.length shows.stdin.stream
    rw [List.length_append, shows.stdin.sized.length_held] at length
    rcases shows.one_request with nothing | ⟨command, asks, -⟩
    · rw [length, nothing]
      exact Nat.zero_le _
    · have fits := shows.stdin.fits (toBinary command) (by rw [asks]; exact List.mem_cons_self)
      rw [length, asks]
      simpa [Erlcmd.stream] using fits.2
  · obtain ⟨o, left, sent, rfl, -⟩ := shows.delivered next
    exact ⟨o, o.ofMessage_body (shows.sendable o (by rw [sent]; exact List.mem_cons_self))⟩
  · obtain ⟨done, todo, stdin, called, split, processed, Called, between⟩ :=
      shows.stdin.step (σ := ⟨b.handler, b.stdin⟩) possible
    refine ⟨stdin, called, processed, between.index_lt, ?_⟩
    rcases shows.dispatched writes split Called with
      ⟨rfl, -⟩ | ⟨command, handler, asks, rfl, -, handles⟩
    · exact .inl rfl
    · rcases shows.one_request with nothing | ⟨command', asks', p, waits, rfl⟩
      · rw [asks] at nothing
        exact absurd nothing (by simp)
      · obtain rfl := List.head_eq_of_cons_eq (asks.symm.trans asks')
        refine .inr ⟨handler, p, rfl, waits, fun os => ?_⟩
        rw [handles os, shows.program]

/-- A request of nineteen bytes, of which the pipe has delivered five. -/
theorem request_understood_drain :
    ∃ (b : Wired) (stdin : Erlcmd.Stdin) (handler : Erlcmd),
      Erlcmd.step ⟨b.handler, b.stdin⟩ (.read 14) = some (stdin, [handler]) ∧
      ∀ os, Encoded.handleElixirRequest os handler.buffer (b.program.enter os) =
        some (b.program.handle (.request os .drain)) := by
  have ran : ∃ h, ∃ b : Wired, Reach (step termToBinary) (fun _ => Within termToBinary) {} h b ∧
      b.server.pending = some ⟨7, .drain, .passing⟩ ∧
      (Erlcmd.Event.read 14).Possible ⟨b.handler, b.stdin⟩ ∧
      (Erlcmd.step ⟨b.handler, b.stdin⟩ (.read 14)).map (fun r => r.2.length) = some 1 :=
    ⟨_, _,
      .step (e := (.request (.read 5) [] : Event))
        (.step (e := (.turn 0 0 : Event)) (.step (e := (.call 7 .drain : Event)) .start trivial rfl)
          (asks_of_step rfl (by decide)) rfl)
        (fun _ inside => absurd inside List.not_mem_nil) rfl, rfl, by decide, by decide⟩
  obtain ⟨h, b, ran, waits, possible, one⟩ := ran
  obtain ⟨-, -, next⟩ := request_understood toBinary_termToBinary ran
  obtain ⟨stdin, called, processed, -, nothing | ⟨handler, p, rfl, waits', handles⟩⟩ :=
    next (.read 14) possible
  · rw [processed, nothing] at one
    exact absurd one (by simp)
  · obtain rfl := Option.some.inj (waits.symm.trans waits')
    exact ⟨b, stdin, handler, processed, handles⟩

end Wired

end CircuitsUart
