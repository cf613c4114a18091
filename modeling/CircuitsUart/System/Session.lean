import CircuitsUart.Server.Held
import CircuitsUart.System.Compose

/-!
# Sessions

Every `open` and every `close` the C program handles begins a session of its own. A byte
is stamped with the session it was read in, and the question is whether the application is
ever given a byte of a session that an answered request has ended.

What the server holds of an old session is in the queue, in the framer, or still on its
way. `CleanCut` is that an `open` or `close` finds nothing there that it would leave, and
`Isolated` what holds of a run whose every cut is clean.

The stamps cost nothing. The model is generic in its bytes, so the same definitions run on stamped
ones, and no part of the program can look at a stamp: `Octet` shows it the byte alone. The stamp is
put on where `read` returns, and compared where a message is delivered.

A session begins when the request is handled and ends for the application when it is answered.
Between the two the port is already another one, and the server may still deliver what it has.
-/

set_option autoImplicit false

namespace CircuitsUart

open Lib Port Server

/-! ## Stamped bytes -/

/-- A received byte, and how many `open` and `close` requests the C program had handled when
it was read. -/
structure Stamped where
  octet : UInt8
  session : Nat
  deriving DecidableEq, Repr

instance : Octet Stamped := ⟨Stamped.octet⟩

namespace Port

/-- The bytes that can be read, stamped. -/
def Os.stamp (session : Nat) (os : Os UInt8) : Os Stamped where
  errno := os.errno
  pathOk := os.pathOk
  opened := os.opened
  fails := os.fails
  reads := os.reads.map fun result => result.map fun bytes => bytes.map fun b => ⟨b, session⟩
  writes := os.writes
  writeClock := os.writeClock
  readClock := os.readClock
  modemStatus := os.modemStatus

end Port

namespace Program

theorem readBytes_stamp {session : Nat} {os : Os UInt8} {p : Program Stamped} {b : Stamped}
    (h : b ∈ p.readBytes (os.stamp session)) : b.session = session := by
  obtain ⟨bytes, mem, hb⟩ := readBytes_mem h
  simp only [Os.stamp, List.mem_map] at mem
  obtain ⟨result, -, hresult⟩ := mem
  cases result with
  | error e => exact absurd hresult (by simp [Except.map])
  | ok raw =>
    obtain rfl := Except.ok.inj hresult
    obtain ⟨octet, -, rfl⟩ := List.mem_map.mp hb
    rfl

end Program

namespace System

def Event.stamp (session : Nat) : Event UInt8 → Event Stamped
  | .call fromPid c => .call fromPid c
  | .expire tref => .expire tref
  | .turn now clock => .turn now clock
  | .request os => .request (os.stamp session)
  | .process os => .process (os.stamp session)
  | .deliver => .deliver

/-- The received bytes the application gets with a label. -/
def Label.bytes {β : Type} : Label β → List β
  | .server l => l.bytes
  | _ => []

end System

/-! ## Sessions -/

/-- The requests that begin a session. -/
def Command.cuts : Command → Bool
  | .open _ _ => true
  | .close => true
  | _ => false

/-- The two processes, and how many `open` and `close` requests the C program has handled
and the server has answered. -/
structure Session where
  system : System Stamped := {}
  handled : Nat := 0
  answered : Nat := 0

namespace Session

/-- A label, and how many `open` and `close` requests had been answered before it. -/
structure Label where
  answered : Nat
  label : System.Label Stamped

/-- The server waits for the response to an `open` or a `close`. -/
def cutting (server : Server Stamped) : Bool := server.pending.any (·.command.cuts)

/-- The `open` and `close` requests the C program handled. -/
def dispatchedCuts (out : List (System.Label Stamped)) : Nat :=
  out.countP fun
    | .dispatched command => command.cuts
    | _ => false

/-- One step of the two processes, on stamped bytes. -/
def step (σ : Session) (e : System.Event UInt8) : Option (Session × List Label) :=
  match System.step σ.system (e.stamp σ.handled) with
  | none => none
  | some (system, out) =>
    some ({
      system := system
      handled := σ.handled + dispatchedCuts out
      answered := σ.answered + (cutting σ.system.server && !cutting system.server).toNat },
      out.map fun l => ⟨σ.answered, l⟩)

/-- No received bytes are on their way to the server, and `open` finds none in the queue, and
none in a framer it leaves. -/
def CutsClean (σ : Session) : Command → Prop
  | .open _ opts => mailData σ.system.incoming = [] ∧ kept opts σ.system.server.state = []
  | .close => mailData σ.system.incoming = []
  | _ => True

instance (σ : Session) : DecidablePred (CutsClean σ)
  | .open _ _ => inferInstanceAs (Decidable (_ ∧ _))
  | .close => inferInstanceAs (Decidable (_ = _))
  | .configure _ | .configuration | .write _ _ | .read _ | .drain | .flush _ | .signals
  | .setDtr _ | .setRts _ | .setBreak _ => inferInstanceAs (Decidable True)

/-- The C program comes to an `open` or a `close` only when it cuts cleanly. -/
def CleanCut (σ : Session) : System.Event UInt8 → Prop
  | .request _ => ∀ command ∈ σ.system.stdin.head?, CutsClean σ command
  | _ => True

instance (σ : Session) : DecidablePred (CleanCut σ)
  | .request _ => inferInstanceAs (Decidable (∀ command ∈ σ.system.stdin.head?, _))
  | .call _ _ | .expire _ | .turn _ _ | .process _ | .deliver => inferInstanceAs (Decidable True)

/-- An `open` or `close` has been handled, and not yet answered. -/
def cut (σ : Session) : Bool := cutting σ.system.server && σ.system.stdin.isEmpty

/-- No byte is older than it may be: what is on its way is of the current session, what is
held or was delivered of one that no answered request has ended. -/
structure Isolated (h : List Label) (σ : Session) : Prop where
  aligned : System.Aligned σ.system
  handled : σ.handled = σ.answered + σ.cut.toNat
  incoming : ∀ b ∈ mailData σ.system.incoming, σ.handled ≤ b.session
  held : ∀ b ∈ held σ.system.server.state, σ.answered ≤ b.session
  clean : σ.cut = true → ∀ p name opts, σ.system.server.pending = some p →
    p.cont = .opening name opts → kept opts σ.system.server.state = []
  delivered : ∀ l ∈ h, ∀ b ∈ l.label.bytes, l.answered ≤ b.session

theorem step_eq_some {σ σ' : Session} {e : System.Event UInt8} {out : List Label}
    (h : step σ e = some (σ', out)) :
    ∃ system out', System.step σ.system (e.stamp σ.handled) = some (system, out') ∧
      σ' = ⟨system, σ.handled + dispatchedCuts out',
        σ.answered + (cutting σ.system.server && !cutting system.server).toNat⟩ ∧
      out = out'.map fun l => ⟨σ.answered, l⟩ := by
  unfold step at h
  split at h
  · exact absurd h (by simp)
  · next system out' hs =>
    obtain ⟨rfl, rfl⟩ := Prod.mk.inj (Option.some.inj h)
    exact ⟨system, out', hs, rfl, rfl⟩

/-- Labels of a step that has delivered only what it may. -/
theorem Isolated.append {h : List Label} {σ : Session} (I : Isolated h σ)
    {out : List (System.Label Stamped)}
    (new : ∀ l ∈ out, ∀ b ∈ l.bytes, σ.answered ≤ b.session) :
    ∀ l ∈ h ++ out.map (fun l => ⟨σ.answered, l⟩ : System.Label Stamped → Label),
      ∀ b ∈ l.label.bytes, l.answered ≤ b.session := by
  intro l hl
  rcases List.mem_append.mp hl with hl | hl
  · exact I.delivered l hl
  · obtain ⟨l', hl', rfl⟩ := List.mem_map.mp hl
    exact new l' hl'

theorem Isolated.answered_le {h : List Label} {σ : Session} (I : Isolated h σ) :
    σ.answered ≤ σ.handled := by
  rw [I.handled]
  exact Nat.le_add_right _ _

/-- A message without received bytes has come, and nothing else has changed. -/
theorem Isolated.arrived {h : List Label} {σ : Session} (I : Isolated h σ)
    {system : System Stamped} {l : Server.Label Stamped} (aligned : System.Aligned system)
    (state : system.server.state = σ.system.server.state)
    (pending : system.server.pending = σ.system.server.pending)
    (stdin : system.stdin = σ.system.stdin)
    (incoming : mailData system.incoming = mailData σ.system.incoming) (quiet : l.bytes = []) :
    Isolated (h ++ [⟨σ.answered, .server l⟩])
      ⟨system, σ.handled + dispatchedCuts [.server l],
        σ.answered + (cutting σ.system.server && !cutting system.server).toNat⟩ := by
  have same : cutting system.server = cutting σ.system.server := by
    rw [cutting, cutting, pending]
  have cut' : ∀ n m, cut ⟨system, n, m⟩ = σ.cut := fun n m => by
    show (cutting system.server && system.stdin.isEmpty) = _
    rw [same, stdin]
    rfl
  have answered : σ.answered + (cutting σ.system.server && !cutting system.server).toNat =
      σ.answered := by
    rw [same]
    cases cutting σ.system.server <;> rfl
  rw [answered]
  refine ⟨aligned, ?_, ?_, ?_, ?_, ?_⟩
  · rw [cut']
    exact I.handled
  · rw [incoming]
    exact I.incoming
  · rw [state]
    exact I.held
  · rw [cut', state, pending]
    exact I.clean
  · have new : ∀ l' ∈ [System.Label.server l], ∀ b ∈ l'.bytes, σ.answered ≤ b.session := by
      intro l' hl' b hb
      obtain rfl := List.mem_singleton.mp hl'
      exact absurd (quiet ▸ hb : b ∈ []) (by simp)
    exact I.append new

theorem dispatchedCuts_server (out : List (Server.Label Stamped)) :
    dispatchedCuts (out.map .server) = 0 := by
  rw [dispatchedCuts, List.countP_map, List.countP_eq_zero]
  intro l hl
  simp

/-- What waits for the response to an `open` or a `close` has a continuation of its own. -/
theorem cuts_cont {p : Pending Stamped} (fits : p.Fits) (cuts : p.command.cuts = true) :
    (∃ name opts, p.cont = .opening name opts) ∨ p.cont = .closing := by
  unfold Pending.Fits at fits
  cases hc : p.command with
  | «open» name opts =>
    rw [hc] at fits
    exact .inl ⟨name, opts, fits⟩
  | close =>
    rw [hc] at fits
    exact .inr fits
  | _ =>
    rw [hc] at cuts
    exact absurd cuts (by simp [Command.cuts])

/-- A turn that takes the response to an `open` or a `close` leaves nothing of before. -/
theorem Isolated.cut_turn {h : List Label} {σ : Session} (I : Isolated h σ)
    {taken : Taken Stamped} {rest : List (Msg Stamped)} {ran : Ran Stamped}
    (next : Server.next σ.system.server = some (taken, rest))
    (goes : Turn σ.system.server.state σ.system.server.timers taken ran)
    (cutting : cutting σ.system.server = true) :
    ran.pending = none ∧ Server.held ran.state = [] := by
  obtain ⟨before, m, after, -, -, -, hstdin, -, -, htaken⟩ := I.aligned.next next
  obtain ⟨p, hp, cuts⟩ : ∃ p, σ.system.server.pending = some p ∧ p.command.cuts = true := by
    cases hp : σ.system.server.pending with
    | none => exact absurd cutting (by simp [Session.cutting, hp])
    | some p => exact ⟨p, rfl, by simpa [Session.cutting, hp] using cutting⟩
  rcases htaken with ⟨rfl, -⟩ | ⟨p', r, rfl, -⟩
  · rcases next_eq_some next with ⟨_, -, hidle, -⟩ | ⟨_, _, _, _, heq, -⟩
    · exact absurd (hidle.symm.trans hp) (by simp)
    · exact absurd heq (by simp)
  · have hp' := (I.aligned.response next).1
    obtain rfl : p' = p := Option.some.inj (hp'.symm.trans hp)
    obtain ⟨hnone, hleft⟩ := goes.cuts (cuts_cont (I.aligned.fits p' hp) cuts)
    refine ⟨hnone, ?_⟩
    rcases hleft with ⟨name, opts, hcont, hleft⟩ | hleft
    · rw [hleft]
      exact I.clean (by simp [cut, cutting, hstdin]) p' name opts hp hcont
    · exact hleft

theorem Isolated.turn {h : List Label} {σ : Session} (I : Isolated h σ)
    {taken : Taken Stamped} {rest : List (Msg Stamped)} {ran : Ran Stamped} {system : System Stamped}
    (next : Server.next σ.system.server = some (taken, rest))
    (goes : Turn σ.system.server.state σ.system.server.timers taken ran)
    (aligned : System.Aligned system)
    (hsystem : system = { σ.system with
      server := ⟨ran.state, ran.timers, ran.pending, rest⟩
      stdin := σ.system.stdin ++ asked ran.out }) :
    Isolated (h ++ (ran.out.map System.Label.server).map (fun l => ⟨σ.answered, l⟩))
      ⟨system, σ.handled + dispatchedCuts (ran.out.map .server),
        σ.answered + (cutting σ.system.server && !cutting system.server).toNat⟩ := by
  obtain ⟨before, m, after, hm, hrest, -, hstdin, -, -, htaken⟩ := I.aligned.next next
  have asks := goes.asks.1
  have hcut : σ.cut = cutting σ.system.server := by
    rw [cut, hstdin]
    exact Bool.and_true _
  have hcut' : ∀ n k, cut ⟨system, n, k⟩ = false := fun n k => by
    subst hsystem
    cases hp : ran.pending with
    | none => simp [cut, cutting]
    | some p => simp [cut, asks, hp]
  have taken_bytes : taken.bytes = m.bytes := by
    rcases htaken with ⟨rfl, -⟩ | ⟨p, r, rfl, rfl⟩ <;> rfl
  have hco : ∀ p r, taken = .response p r → Coherent σ.system.server.state p := by
    intro p r heq
    subst heq
    exact (I.aligned.response next).2.1
  have incoming : mailData σ.system.incoming =
      mailData before ++ (m.bytes ++ mailData (after ++ σ.system.stdout.map System.msg)) := by
    rw [System.incoming, hm, List.append_assoc, mailData_append]
    rfl
  -- whatever the turn delivers or keeps is of a session that has not been ended
  have old : ∀ b ∈ Server.held σ.system.server.state ++ taken.bytes, σ.answered ≤ b.session := by
    intro b hb
    rcases List.mem_append.mp hb with hb | hb
    · exact I.held b hb
    · refine I.answered_le.trans (I.incoming b ?_)
      rw [incoming, ← taken_bytes]
      simp [hb]
  have bytes := goes.bytes hco
  have hanswered : σ.handled =
      σ.answered + (cutting σ.system.server && !cutting system.server).toNat := by
    rw [I.handled, hcut]
    cases hc : cutting σ.system.server with
    | false => rfl
    | true =>
      have := (I.cut_turn next goes hc).1
      have : cutting system.server = false := by
        rw [hsystem]
        simp [cutting, this]
      rw [this]
      rfl
  refine ⟨aligned, ?_, ?_, ?_, fun hc => ?_, ?_⟩
  · -- a turn that ends waiting for a cut has only just sent it
    show σ.handled + dispatchedCuts (ran.out.map .server) = _ + (cut _).toNat
    rw [dispatchedCuts_server, hcut']
    exact hanswered
  · intro b hb
    show σ.handled + dispatchedCuts (ran.out.map .server) ≤ b.session
    rw [dispatchedCuts_server]
    refine I.incoming b ?_
    rw [incoming]
    rw [System.incoming, hsystem] at hb
    show b ∈ mailData before ++ _
    simp only [hrest, mailData_append, List.mem_append] at hb ⊢
    tauto
  · intro b hb
    show _ + _ ≤ b.session
    rw [← hanswered]
    rw [hsystem] at hb
    cases hc : cutting σ.system.server with
    | true =>
      -- one more cut is answered, and nothing of before it is left
      rw [(I.cut_turn next goes hc).2] at hb
      exact absurd hb (by simp)
    | false =>
      rw [I.handled, hcut, hc]
      exact old b (bytes (List.mem_append_right _ hb))
  · exact absurd hc (by simp [hcut'])
  · refine I.append fun l hl b hb => ?_
    obtain ⟨l', hl', rfl⟩ := List.mem_map.mp hl
    exact old b (bytes (List.mem_append_left _ (List.mem_flatMap.mpr ⟨l', hl', hb⟩)))

/-- The C program has run, and what it wrote is of the current session. -/
theorem Isolated.ran {h : List Label} {σ : Session} (I : Isolated h σ) {q : Program Stamped}
    {stdin : List Command} {system : System Stamped} {out : List (System.Label Stamped)}
    (aligned : System.Aligned system)
    (hsystem : system = { σ.system with
      program := { q with out := [] }, stdin := stdin, stdout := σ.system.stdout ++ q.out })
    (handled : σ.handled + dispatchedCuts out =
      σ.answered + (cutting σ.system.server && stdin.isEmpty).toNat)
    (fresh : ∀ b ∈ mailData σ.system.incoming ++ q.data,
      σ.handled + dispatchedCuts out ≤ b.session)
    (clean : (cutting σ.system.server && stdin.isEmpty) = true → ∀ p name opts,
      σ.system.server.pending = some p → p.cont = .opening name opts →
        kept opts σ.system.server.state = [])
    (quiet : ∀ l ∈ out, l.bytes = []) :
    Isolated (h ++ out.map fun l => ⟨σ.answered, l⟩)
      ⟨system, σ.handled + dispatchedCuts out,
        σ.answered + (cutting σ.system.server && !cutting system.server).toNat⟩ := by
  subst hsystem
  have same : (cutting σ.system.server && !cutting σ.system.server).toNat = 0 := by
    cases cutting σ.system.server <;> rfl
  refine ⟨aligned, ?_, ?_, ?_, clean, I.append fun l hl b hb => ?_⟩
  · show _ = σ.answered + (cutting σ.system.server && !cutting σ.system.server).toNat + _
    rw [same]
    exact handled
  · intro b hb
    apply fresh b
    rw [← System.mailData_wrote]
    exact hb
  · show ∀ b ∈ _, σ.answered + (cutting σ.system.server && !cutting σ.system.server).toNat ≤ _
    rw [same]
    exact I.held
  · rw [quiet l hl] at hb
    exact absurd hb (by simp)

theorem stamped_input {σ : Session} {os : Os UInt8} {b : Stamped} :
    (∀ command, b ∈ σ.system.program.input (.request (os.stamp σ.handled) command) →
      σ.handled ≤ b.session) ∧
    (b ∈ σ.system.program.input (.process (os.stamp σ.handled)) → σ.handled ≤ b.session) := by
  refine ⟨fun command h => ?_, fun h => ?_⟩
  · obtain ⟨q, hq⟩ := Program.mem_input.1 command h
    exact (Program.readBytes_stamp hq).ge
  · obtain ⟨q, hq⟩ := Program.mem_input.2 h
    exact (Program.readBytes_stamp hq).ge

/-- The C program handles a request, which may end the session. -/
theorem Isolated.request {h : List Label} {σ : Session} (I : Isolated h σ) {os : Os UInt8}
    {command : Command} {rest : List Command} {q : Program Stamped} {system : System Stamped}
    (hstdin : σ.system.stdin = command :: rest) (guard : CutsClean σ command)
    (handled : σ.system.program.handle (.request (os.stamp σ.handled) command) = .ok q)
    (aligned : System.Aligned system)
    (hsystem : system = { σ.system with
      program := { q with out := [] }, stdin := rest, stdout := σ.system.stdout ++ q.out }) :
    let out : List (System.Label Stamped) := [.dispatched command,
      .input (σ.system.program.input (.request (os.stamp σ.handled) command))]
    Isolated (h ++ out.map fun l => ⟨σ.answered, l⟩)
      ⟨system, σ.handled + dispatchedCuts out,
        σ.answered + (cutting σ.system.server && !cutting system.server).toNat⟩ := by
  intro out
  obtain ⟨rfl, -, -, p, hp, hcommand⟩ := I.aligned.asked hstdin
  have hcutting : cutting σ.system.server = command.cuts := by
    simp [cutting, hp, hcommand]
  have settled : σ.handled = σ.answered := by
    have := I.handled
    simpa [cut, hstdin] using this
  have counts : dispatchedCuts out = command.cuts.toNat := by
    cases hc : command.cuts <;> simp [out, dispatchedCuts, hc]
  have data := Program.handle_data handled
  have clean : command.cuts = true → mailData σ.system.incoming = [] ∧ q.data = [] ∧
      ∀ name opts, p.cont = .opening name opts →
        kept opts σ.system.server.state = [] := by
    intro hc
    have fits := I.aligned.fits p hp
    rw [Pending.Fits, hcommand] at fits
    cases command with
    | «open» name opts =>
      refine ⟨guard.1, data, fun name' opts' hcont => ?_⟩
      obtain ⟨-, rfl⟩ := Cont.opening.inj (hcont.symm.trans fits)
      exact guard.2
    | close =>
      refine ⟨guard, data, fun name opts hcont => ?_⟩
      exact absurd (hcont.symm.trans fits) (by simp)
    | _ => exact absurd hc (by simp [Command.cuts])
  refine I.ran aligned hsystem ?_ ?_ ?_ ?_
  · rw [counts, settled, hcutting]
    exact congrArg (σ.answered + Bool.toNat ·) (Bool.and_true _).symm
  · intro b hb
    rw [counts]
    cases hc : command.cuts with
    | true =>
      rw [(clean hc).1, (clean hc).2.1] at hb
      exact absurd hb (by simp)
    | false =>
      rcases List.mem_append.mp hb with hb | hb
      · exact I.incoming b hb
      · rw [data] at hb
        exact stamped_input.1 command hb
  · intro hc p' name opts hp' hcont
    rw [hcutting] at hc
    obtain rfl : p = p' := Option.some.inj (hp.symm.trans hp')
    exact (clean (by simpa using hc)).2.2 name opts hcont
  · intro l hl
    simp only [out, List.mem_cons, List.not_mem_nil, or_false] at hl
    rcases hl with rfl | rfl <;> rfl

/-- **A step keeps the sessions apart**, if every cut is clean. -/
theorem step_isolated {h : List Label} {σ σ' : Session} {e : System.Event UInt8}
    {out : List Label} (I : Isolated h σ) (guard : CleanCut σ e)
    (took : step σ e = some (σ', out)) : Isolated (h ++ out) σ' := by
  obtain ⟨system, out', hs, rfl, rfl⟩ := step_eq_some took
  have aligned := System.step_aligned I.aligned hs
  cases e with
  | call fromPid c =>
    cases System.step_cases hs
    exact I.arrived aligned rfl rfl rfl (mailData_insert _ _ rfl) rfl
  | expire tref =>
    cases System.step_cases hs
    exact I.arrived aligned rfl rfl rfl (mailData_insert _ _ rfl) rfl
  | deliver =>
    cases System.step_cases hs with
    | deliver stdout =>
      exact I.arrived aligned rfl rfl rfl (congrArg mailData (System.incoming_deliver stdout)) rfl
  | turn now clock =>
    cases System.step_cases hs with
    | turn next goes => exact I.turn next goes aligned rfl
  | process os =>
    cases System.step_cases hs with
    | process handled =>
      refine I.ran aligned rfl I.handled ?_ I.clean ?_
      · intro b hb
        rcases List.mem_append.mp hb with hb | hb
        · exact I.incoming b hb
        · rw [Program.handle_data handled] at hb
          exact stamped_input.2 hb
      · intro l hl
        obtain rfl := List.mem_singleton.mp hl
        rfl
  | request os =>
    cases System.step_cases hs with
    | @request _ command rest q hstdin handled =>
      exact I.request hstdin (guard command (by simp [hstdin])) handled aligned rfl

theorem isolated_init : Isolated [] {} where
  aligned := System.Quiet.aligned ⟨rfl, rfl, rfl⟩ rfl
  handled := rfl
  incoming b hb := absurd hb (by simp [System.incoming, mailData])
  held b hb := absurd hb (by simp [Server.held, Framer.buffered])
  clean hc := absurd hc (by simp [cut, cutting])
  delivered l hl := absurd hl (by simp)

/-- **Session isolation.** In every run of the two processes whose cuts are all clean, no byte
is delivered that was read before an `open` or a `close` was handled that has been answered. -/
theorem delivered_isolated {h : List Label} {σ : Session}
    (r : Reach step (fun _ σ e => CleanCut σ e) {} h σ) :
    ∀ l ∈ h, ∀ b ∈ l.label.bytes, l.answered ≤ b.session := by
  have keep : ∀ (h : List Label) σ e σ' out, Isolated h σ → CleanCut σ e →
      step σ e = some (σ', out) → Isolated (h ++ out) σ' :=
    fun _ _ _ _ _ I guard took => step_isolated I guard took
  exact (Reach.invariant isolated_init keep r).delivered

/-- `open` from the call to its reply. -/
def opens (opts : List UartOption) : List (System.Event UInt8) :=
  [.call 0 (.open ttyS0 opts), .turn 0 0, .request { opened := fun _ => .ok (3, .raw) }, .deliver,
    .turn 0 0]

/-- Bytes are received in active mode, and reach the server. -/
def receives (bytes : List UInt8) : List (System.Event UInt8) :=
  [.process { reads := [.ok bytes] }, .deliver, .turn 0 0]

/-- A line is received, the port is opened again, and another line is received. -/
def twoSessions : List (System.Event UInt8) :=
  opens [.framing (.module .line)] ++ receives [65, 10] ++ opens [] ++ receives [66, 10]

theorem delivered_isolated_twoSessions :
    ∃ r, exec step {} twoSessions = some r ∧ r.1.answered = 2 ∧
      (r.2.flatMap fun l => l.label.bytes) = [⟨65, 1⟩, ⟨66, 2⟩] ∧
      ∀ l ∈ r.2, ∀ b ∈ l.label.bytes, l.answered ≤ b.session := by
  have clean : permitted step (fun σ e => decide (CleanCut σ e)) {} twoSessions = true := by decide
  cases ran : exec step {} twoSessions with
  | none => exact absurd ran (by decide)
  | some r =>
    have reach := (Reach.of_permitted .start clean ran).weaken fun _ _ _ => of_decide_eq_true
    refine ⟨r, rfl, ?_, ?_, delivered_isolated reach⟩
    · obtain rfl := Option.some.inj (ran.symm.trans rfl)
      rfl
    · obtain rfl := Option.some.inj (ran.symm.trans rfl)
      rfl

/-- A port is opened again, without `:framing`, over the beginning of a line. -/
def reopened : List (System.Event UInt8) :=
  opens [.framing (.module .line)] ++ receives [65] ++ opens [] ++ receives [10]

/-- The line is delivered in the new session. -/
theorem not_isolated_reopened : ¬ ∀ (h : List Label) (σ : Session), Reach step anyStep {} h σ →
    ∀ l ∈ h, ∀ b ∈ l.label.bytes, l.answered ≤ b.session := by
  intro isolated
  have reach := Reach.of_exec (rfl : exec step ({} : Session) reopened = some (_, _))
  exact absurd (isolated _ _ reach) (by decide)

end Session

end CircuitsUart
