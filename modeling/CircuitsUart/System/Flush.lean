import CircuitsUart.Server.Flush
import CircuitsUart.System.Compose

/-!
# What a flush discards

Received bytes wait in the input queue of the kernel, in the framer and as messages in the
queue of the GenServer. `tcflush` empties the first and `flush/2` of the framing the second;
nothing empties the third.

A byte is dated with the flushes there had been when it came. If no queued message has a byte
when the C program comes to flush, and no notification from before the flush leaves any behind
it in the framer, every byte that is read later is younger than the flush.

The kernel's queue is part of the state here and nowhere else. Elsewhere `read` may return
anything; what a flush does to bytes that nobody has read yet can only be said of a queue, so
bytes arrive in one, `read` takes from its front, and `tcflush` empties it if it succeeds.

A flush counts when it is made and again when it is answered with `:ok`. What is promised is about
the second count, for that is what the caller knows; the invariant (`Fresh`) is about the first.
-/

set_option autoImplicit false

namespace CircuitsUart

open Lib Port Server

/-- The response `:ok`. -/
def Response.accepted {β : Type} : Response β → Bool
  | .ok => true
  | _ => false

/-! ## The C program's part -/

namespace Program

variable {β : Type}

/-- The response to a flush. -/
theorem handle_flush {p q : Program β} {os : Os β} {direction : Direction}
    (h : p.handle (.request os (.flush direction)) = .ok q) :
    ∃ r, q.out = [.response r] ∧ r.bytes = [] ∧ q.uart = p.uart ∧
      (r.accepted = true ↔ p.uartIsOpen = true ∧ os.fails .tcflush = none) := by
  have ran : (p.enter os).handleFlush os direction = .ok q := h
  rw [handleFlush, whenOpen] at ran
  have isOpen : (p.enter os).uartIsOpen = p.uartIsOpen := rfl
  rw [isOpen] at ran
  cases opened : p.uartIsOpen with
  | false =>
    rw [opened, if_neg (by simp)] at ran
    obtain rfl := Except.ok.inj ran
    exact ⟨.error .ebadf, rfl, rfl, rfl, by simp [Response.accepted]⟩
  | true =>
    rw [opened, if_pos rfl, uartFlush] at ran
    split at ran
    · exact absurd ran (by simp [bind, Except.bind])
    · have called : respond ((p.enter os).call os .tcflush) = q := Except.ok.inj ran
      unfold call at called
      cases fails : os.fails .tcflush with
      | none =>
        rw [fails] at called
        subst called
        exact ⟨.ok, rfl, rfl, rfl, by simp [Response.accepted]⟩
      | some errno =>
        rw [fails] at called
        subst called
        exact ⟨.error _, rfl, rfl, rfl, by simp [Response.accepted]⟩

end Program

/-! ## Dated bytes -/

/-- A received byte, and how many flushes there had been when it came. -/
structure Dated where
  octet : UInt8
  flushes : Nat
  deriving DecidableEq, Repr

instance : Octet Dated := ⟨Dated.octet⟩

/-- The two processes and the input queue of the kernel, with the flushes the C program has
made and those that were replied `:ok`. -/
structure Reception where
  system : System Dated := {}
  queue : List Dated := []
  flushed : Nat := 0
  answered : Nat := 0

namespace Reception

inductive Event
  /-- bytes come in on the line -/
  | receive (bytes : List UInt8)
  /-- the kernel drops its queue, as it does with the last descriptor closed -/
  | discard
  | system (e : System.Event Dated)

/-- A label, and how many flushes had been replied `:ok` before it. -/
structure Label where
  answered : Nat
  label : System.Label Dated

/-- What `read` may return. -/
def reads : System.Event Dated → List (Except Errno (List Dated))
  | .request os | .process os => os.reads
  | _ => []

/-- `read` returns what is in front in the queue. -/
def Supplied (queue : List Dated) (e : System.Event Dated) : Prop :=
  ∀ result ∈ reads e, match result with
    | .ok bytes => bytes <+: queue
    | .error _ => True

instance (queue : List Dated) : DecidablePred (Supplied queue) := fun e =>
  have (result : Except Errno (List Dated)) : Decidable (match result with
      | .ok bytes => bytes <+: queue
      | .error _ => True) :=
    match result with
    | .ok bytes => inferInstanceAs (Decidable (bytes <+: queue))
    | .error _ => inferInstanceAs (Decidable True)
  inferInstanceAs (Decidable (∀ result ∈ reads e, _))

/-- What a step took from the queue. -/
def input (out : List (System.Label Dated)) : List Dated :=
  out.flatMap fun
    | .input data => data
    | _ => []

/-- `tcflush` succeeds for the input queue. -/
def empties (σ : System Dated) : System.Event Dated → Bool
  | .request os =>
    match σ.stdin with
    | .flush direction :: _ =>
      direction.receives && σ.program.uartIsOpen && (os.fails .tcflush).isNone
    | _ => false
  | _ => false

/-- A command that flushes what was received, of a server in passive mode that frames it. -/
def discards (s : State Dated) : Command → Bool
  | .flush direction => direction.receives && !s.isActive && s.framer.framing ≠ .none
  | _ => false

/-- The callback that waits is for such a flush. -/
def flushing (server : Server Dated) : Bool :=
  server.pending.any fun p => discards server.state p.command

/-- The step replies `:ok`. -/
def accepts (out : List (System.Label Dated)) : Bool :=
  out.any fun
    | .server (.replied _ (.port .ok)) => true
    | _ => false

/-- One step, with the queue of the kernel beside it. -/
def step (σ : Reception) : Event → Option (Reception × List Label)
  | .receive bytes =>
    some ({ σ with queue := σ.queue ++ bytes.map fun b => ⟨b, σ.flushed⟩ }, [])
  | .discard => some ({ σ with queue := [] }, [])
  | .system e =>
    if Supplied σ.queue e then
      match System.step σ.system e with
      | none => none
      | some (system, out) =>
        let emptied := empties σ.system e
        some ({
          system := system
          queue := if emptied then [] else σ.queue.drop (input out).length
          flushed := σ.flushed + (emptied && flushing σ.system.server).toNat
          answered := σ.answered + (flushing σ.system.server && accepts out).toNat },
          out.map fun l => ⟨σ.answered, l⟩)
    else none

/-- The data of the notification that is handled next. -/
def notified (server : Server Dated) : Option (List Dated) :=
  match server.pending, server.mailbox with
  | none, .notif (.data data) :: _ => some data
  | _, _ => none

/-- No queued message has a byte when what was received is flushed, and a notification that was
sent before a flush leaves nothing in the framer. -/
def Discards (σ : Reception) : Event → Prop
  | .system (.request os) => empties σ.system (.request os) = true →
      flushing σ.system.server = true →
        σ.system.server.state.queuedMessages.flatMap Message.bytes = []
  | .system (.turn _ _) => ∀ data ∈ notified σ.system.server,
      ∀ r ∈ σ.system.server.state.framer.removeFraming data,
        ∀ b ∈ r.2.2.buffered, σ.answered ≤ b.flushes
  | _ => True

instance (σ : Reception) : DecidablePred (Discards σ)
  | .system (.request os) => inferInstanceAs (Decidable (empties σ.system (.request os) = true →
      flushing σ.system.server = true →
        σ.system.server.state.queuedMessages.flatMap Message.bytes = []))
  | .system (.turn _ _) => inferInstanceAs (Decidable (∀ data ∈ notified σ.system.server,
      ∀ r ∈ σ.system.server.state.framer.removeFraming data,
        ∀ b ∈ r.2.2.buffered, σ.answered ≤ b.flushes))
  | .receive _ | .discard | .system (.call _ _) | .system (.expire _) | .system (.process _)
  | .system .deliver => inferInstanceAs (Decidable True)

theorem step_system {σ σ' : Reception} {e : System.Event Dated} {out : List Label}
    (h : step σ (.system e) = some (σ', out)) :
    Supplied σ.queue e ∧ ∃ system out', System.step σ.system e = some (system, out') ∧
      σ' = {
        system := system
        queue := if empties σ.system e then [] else σ.queue.drop (input out').length
        flushed := σ.flushed + (empties σ.system e && flushing σ.system.server).toNat
        answered := σ.answered + (flushing σ.system.server && accepts out').toNat } ∧
      out = out'.map fun l => ⟨σ.answered, l⟩ := by
  simp only [step] at h
  split at h
  · next supplied =>
    split at h
    · exact absurd h (by simp)
    · next system out' took =>
      obtain ⟨rfl, rfl⟩ := Prod.mk.inj (Option.some.inj h)
      exact ⟨supplied, system, out', took, rfl, rfl⟩
  · exact absurd h (by simp)

/-! ## One flush at a time -/

/-- What is known of a flush that the server waits for. -/
structure Orderly (system : System Dated) : Prop where
  aligned : System.Aligned system
  flushing : ∀ p, system.server.pending = some p → Flushing system.server.state p
  idle : ∀ p direction, system.server.pending = some p → p.command = .flush direction →
    system.program.pending = false

theorem Orderly.still {σ σ' : System Dated} (O : Orderly σ) (aligned : System.Aligned σ')
    (state : σ'.server.state = σ.server.state) (pending : σ'.server.pending = σ.server.pending)
    (program : σ'.program = σ.program) : Orderly σ' := by
  refine ⟨aligned, ?_, ?_⟩
  · rw [state, pending]
    exact O.flushing
  · rw [program, pending]
    exact O.idle

/-- **A step keeps flushes orderly.** -/
theorem step_orderly {σ σ' : System Dated} {e : System.Event Dated}
    {out : List (System.Label Dated)} (O : Orderly σ) (h : System.step σ e = some (σ', out)) :
    Orderly σ' := by
  have aligned := System.step_aligned O.aligned h
  cases System.step_cases h with
  | call fromPid call => exact O.still aligned rfl rfl rfl
  | expire live => exact O.still aligned rfl rfl rfl
  | deliver stdout => exact O.still aligned rfl rfl rfl
  | turn next goes =>
    obtain ⟨-, -, -, -, -, -, -, idle, -, -⟩ := O.aligned.next next
    exact ⟨aligned, goes.flushing, fun _ _ _ _ => idle⟩
  | @request os command rest q stdin handled =>
    refine ⟨aligned, O.flushing, fun p direction waits flush => ?_⟩
    -- the request that was handled is the one that is waited for
    obtain ⟨-, -, -, p', waits', rfl⟩ := O.aligned.asked stdin
    obtain rfl := Option.some.inj (waits.symm.trans waits')
    have idle := O.idle p direction waits flush
    rw [flush] at handled
    obtain ⟨r, -, -, uart, -⟩ := Program.handle_flush handled
    exact (Program.idle_congr (p := σ.program) (q := { q with out := [] })
      (congrArg Uart.writeData uart) (congrArg Uart.readPending uart)).trans idle
  | @process os q handled =>
    refine ⟨aligned, O.flushing, fun p direction waits flush => ?_⟩
    have idle := O.idle p direction waits flush
    have after := Program.uartProcess_idle os (p := σ.program.enter os) idle rfl
    rw [show (σ.program.enter os).uartProcess os = .ok q from handled] at after
    exact after.1

/-! ## No byte is older than a flush -/

/-- A flush was made whose `:ok` has not been replied yet. -/
def due (system : System Dated) : Bool :=
  flushing system.server && (responses system.incoming).any Response.accepted

/-- Wherever a byte waits from which it can be read, it came after every flush. -/
structure Fresh (σ : Reception) : Prop where
  orderly : Orderly σ.system
  count : σ.flushed = σ.answered + (due σ.system).toNat
  queue : ∀ b ∈ σ.queue, σ.flushed ≤ b.flushes
  held : ∀ b ∈ held σ.system.server.state, σ.flushed ≤ b.flushes
  answers : ∀ r ∈ responses σ.system.incoming, ∀ b ∈ r.bytes, σ.flushed ≤ b.flushes

theorem Fresh.answered_le {σ : Reception} (F : Fresh σ) : σ.answered ≤ σ.flushed := by
  rw [F.count]
  exact Nat.le_add_right _ _

/-- The received bytes that a read returns or a framing timeout reports with a label. -/
def reported : System.Label Dated → List Dated
  | .server l => l.reported
  | _ => []

theorem input_server (out : List (Server.Label Dated)) : input (out.map .server) = [] := by
  rw [input, List.flatMap_map]
  exact List.flatMap_eq_nil_iff.mpr fun _ _ => rfl

/-- A message has reached the mailbox. -/
theorem Fresh.still {σ : Reception} (F : Fresh σ) {system : System Dated} (O : Orderly system)
    (state : system.server.state = σ.system.server.state)
    (pending : system.server.pending = σ.system.server.pending)
    (incoming : responses system.incoming = responses σ.system.incoming) :
    Fresh { σ with system := system } := by
  have same : due system = due σ.system := by
    unfold due flushing
    rw [state, pending, incoming]
  refine ⟨O, ?_, F.queue, ?_, ?_⟩
  · show σ.flushed = σ.answered + (due system).toNat
    rw [same]
    exact F.count
  · show ∀ b ∈ Server.held system.server.state, _
    rw [state]
    exact F.held
  · show ∀ r ∈ responses system.incoming, _
    rw [incoming]
    exact F.answers

theorem Fresh.arrived {σ : Reception} (F : Fresh σ) {system : System Dated} (O : Orderly system)
    {e : System.Event Dated} {m : Msg Dated}
    (state : system.server.state = σ.system.server.state)
    (pending : system.server.pending = σ.system.server.pending)
    (incoming : responses system.incoming = responses σ.system.incoming)
    (other : empties σ.system e = false) :
    Fresh {
      system := system
      queue := if empties σ.system e then [] else
        σ.queue.drop (input [.server (.arrived m)]).length
      flushed := σ.flushed + (empties σ.system e && flushing σ.system.server).toNat
      answered := σ.answered +
        (flushing σ.system.server && accepts [.server (.arrived m)]).toNat } := by
  have unanswered : accepts [.server (.arrived m)] = false := rfl
  rw [other, unanswered, Bool.and_false]
  exact F.still O state pending incoming

/-- What a turn takes is no older than the last flush, unless it was notified. -/
theorem Fresh.taken {σ : Reception} (F : Fresh σ) {taken : Taken Dated} {rest : List (Msg Dated)}
    {ran : Ran Dated} (next : Server.next σ.system.server = some (taken, rest))
    (goes : Turn σ.system.server.state σ.system.server.timers taken ran) :
    (∃ data, taken = .message (.notif (.data data))) ∨ ∀ b ∈ taken.bytes, σ.flushed ≤ b.flushes := by
  have nothing : taken.bytes = [] → ∀ b ∈ taken.bytes, σ.flushed ≤ b.flushes := by
    intro empty b hb
    rw [empty] at hb
    exact absurd hb (by simp)
  cases taken with
  | message m =>
    cases m with
    | notif n =>
      cases n with
      | data data => exact .inl ⟨data, rfl⟩
      | error reason => exact .inr (nothing rfl)
    | resp r => cases goes
    | call fromPid call => exact .inr (nothing rfl)
    | rxFramingTimedOut tref => exact .inr (nothing rfl)
  | response p r => exact .inr (F.answers r (System.mem_responses_of_next next).2)

/-- **What a turn keeps and what it reports** is no older than the last flush, if a notification
leaves nothing older in the framer. -/
theorem Fresh.turn_bytes {σ : Reception} (F : Fresh σ) {taken : Taken Dated}
    {rest : List (Msg Dated)} {ran : Ran Dated}
    (next : Server.next σ.system.server = some (taken, rest))
    (goes : Turn σ.system.server.state σ.system.server.timers taken ran)
    (clean : ∀ data ∈ notified σ.system.server,
      ∀ r ∈ σ.system.server.state.framer.removeFraming data,
        ∀ b ∈ r.2.2.buffered, σ.answered ≤ b.flushes) :
    (∀ b ∈ Server.held ran.state, σ.flushed ≤ b.flushes) ∧
      ∀ l ∈ ran.out, ∀ b ∈ l.reported, σ.flushed ≤ b.flushes := by
  have coherent : ∀ p r, taken = .response p r → Coherent σ.system.server.state p := by
    intro p r heq
    subst heq
    exact (F.orderly.aligned.response next).2.1
  rcases F.taken next goes with ⟨data, rfl⟩ | young
  · -- nothing waits, so every flush has been replied
    rcases next_eq_some next with ⟨m, heq, waits, mailbox⟩ | ⟨_, _, _, _, heq, -⟩
    · obtain rfl := Taken.message.inj heq
      have settled : σ.flushed = σ.answered := by
        have none_due : due σ.system = false := by
          rw [due, flushing, waits]
          rfl
        rw [F.count, none_due]
        rfl
      have handled : notified σ.system.server = some data := by
        rw [notified, waits, mailbox]
      obtain ⟨rc, ms, framed, queue, quiet⟩ := goes.of_data
      refine ⟨fun b hb => ?_, fun l hl b hb => ?_⟩
      · rcases List.mem_append.mp hb with hb | hb
        · rw [queue] at hb
          exact F.held b (List.mem_append_left _ hb)
        · rw [settled]
          exact clean data handled _ framed b hb
      · rw [quiet l hl] at hb
        exact absurd hb (by simp)
    · exact absurd heq (by simp)
  · have bytes := goes.bytes coherent
    have old : ∀ b ∈ Server.held σ.system.server.state ++ taken.bytes, σ.flushed ≤ b.flushes := by
      intro b hb
      rcases List.mem_append.mp hb with hb | hb
      · exact F.held b hb
      · exact young b hb
    refine ⟨fun b hb => old b (bytes (List.mem_append_right _ hb)), fun l hl b hb => ?_⟩
    rcases goes.reported l hl b hb with hb | hb
    · exact old b (bytes (List.mem_append_left _ hb))
    · exact F.held b hb

theorem discards_flush {s : State Dated} {command : Command} (h : discards s command = true) :
    ∃ direction, command = .flush direction ∧ direction.receives = true := by
  unfold discards at h
  split at h
  · next direction =>
    simp only [Bool.and_eq_true] at h
    exact ⟨direction, rfl, h.1.1⟩
  · exact absurd h (by simp)

/-- The callback that waits for a flush. -/
theorem waits_of_flushing {server : Server Dated} (h : flushing server = true) :
    ∃ p direction, server.pending = some p ∧ p.command = .flush direction ∧
      direction.receives = true := by
  unfold flushing at h
  cases waits : server.pending with
  | none =>
    rw [waits] at h
    exact absurd h (by simp)
  | some p =>
    rw [waits] at h
    obtain ⟨direction, flush, receives⟩ := discards_flush h
    exact ⟨p, direction, rfl, flush, receives⟩

theorem server_turn {σ σ' : System Dated} {now clock : Int} {out : List (System.Label Dated)}
    (h : System.step σ (.turn now clock) = some (σ', out)) :
    ∃ out', Server.step σ.server (.turn now clock) = some (σ'.server, out') ∧
      out = out'.map .server ∧ σ'.stdout = σ.stdout := by
  simp only [System.step, System.serverStep] at h
  split at h
  · exact absurd h (by simp)
  · next server out' took =>
    obtain ⟨rfl, rfl⟩ := Prod.mk.inj (Option.some.inj h)
    exact ⟨out', took, rfl, rfl⟩

/-- After a turn every flush that was made has been replied. -/
theorem Fresh.turn_count {σ : Reception} (F : Fresh σ) {now clock : Int} {system : System Dated}
    {out : List (System.Label Dated)}
    (took : System.step σ.system (.turn now clock) = some (system, out)) :
    σ.flushed = σ.answered + (flushing σ.system.server && accepts out).toNat := by
  rw [F.count, due]
  cases waits : flushing σ.system.server with
  | false => rfl
  | true =>
    obtain ⟨p, direction, pending, flush, -⟩ := waits_of_flushing waits
    have passing := (F.orderly.flushing p pending direction flush).1
    obtain ⟨out', turned, rfl, -⟩ := server_turn took
    obtain ⟨r, rest, next, -, rfl⟩ := step_passing pending passing turned
    have mem := (System.mem_responses_of_next next).2
    rw [(F.orderly.aligned.answered mem).2.2]
    cases r <;> rfl

/-- **A turn.** -/
theorem Fresh.turn {σ : Reception} (F : Fresh σ) {now clock : Int} {system : System Dated}
    {out : List (System.Label Dated)}
    (took : System.step σ.system (.turn now clock) = some (system, out))
    (clean : ∀ data ∈ notified σ.system.server,
      ∀ r ∈ σ.system.server.state.framer.removeFraming data,
        ∀ b ∈ r.2.2.buffered, σ.answered ≤ b.flushes) :
    Fresh ⟨system, σ.queue.drop (input out).length, σ.flushed,
      σ.answered + (flushing σ.system.server && accepts out).toNat⟩ ∧
      ∀ l ∈ out, ∀ b ∈ reported l, σ.flushed ≤ b.flushes := by
  have count := F.turn_count took
  have orderly := step_orderly F.orderly took
  cases System.step_cases took with
  | @turn _ _ taken rest ran next goes =>
    obtain ⟨-, -, -, -, -, -, -, -, nothing, -⟩ := F.orderly.aligned.next next
    obtain ⟨held, quiet⟩ := F.turn_bytes next goes clean
    refine ⟨⟨orderly, ?_, ?_, held, fun r hr => ?_⟩, fun l hl b hb => ?_⟩
    · rw [due, System.incoming, nothing, ← count]
      exact (congrArg (σ.flushed + Bool.toNat ·) (Bool.and_false _)).symm
    · rw [input_server]
      exact F.queue
    · rw [System.incoming, nothing] at hr
      exact absurd hr (by simp)
    · obtain ⟨l', hl', rfl⟩ := List.mem_map.mp hl
      exact quiet l' hl' b hb

/-- What the C program reads comes from the queue of the kernel. -/
theorem mem_queue {σ : Reception} {os : Os Dated} {b : Dated} :
    (∀ command, Supplied σ.queue (.request os) →
      b ∈ σ.system.program.input (.request os command) → b ∈ σ.queue) ∧
    (Supplied σ.queue (.process os) → b ∈ σ.system.program.input (.process os) → b ∈ σ.queue) := by
  have taken : (∀ result ∈ os.reads, match result with
      | .ok bytes => bytes <+: σ.queue
      | .error _ => True) → ∀ q : Program Dated, b ∈ q.readBytes os → b ∈ σ.queue := by
    intro supplied q hb
    obtain ⟨bytes, mem, hb⟩ := Program.readBytes_mem hb
    exact (supplied _ mem).subset hb
  refine ⟨fun command supplied hb => ?_, fun supplied hb => ?_⟩
  · obtain ⟨q, hq⟩ := Program.mem_input.1 command hb
    exact taken supplied q hq
  · obtain ⟨q, hq⟩ := Program.mem_input.2 hb
    exact taken supplied q hq

/-- The responses written with data carry what was read. -/
theorem mem_data {q : Program Dated} {r : Response Dated} (hr : r ∈ responses (q.out.map System.msg))
    {b : Dated} (hb : b ∈ r.bytes) : b ∈ q.data :=
  List.mem_flatMap.mpr ⟨_, System.mem_responses_map_msg.mp hr, hb⟩

/-- **The C program has run**, and made no flush. -/
theorem Fresh.ran {σ : Reception} (F : Fresh σ) {system : System Dated} {q : Program Dated}
    (orderly : Orderly system) (n : Nat) (server : system.server = σ.system.server)
    (incoming : responses system.incoming =
      responses σ.system.incoming ++ responses (q.out.map System.msg))
    (young : ∀ b ∈ q.data, σ.flushed ≤ b.flushes)
    (settled : flushing σ.system.server = true → responses (q.out.map System.msg) = []) :
    Fresh ⟨system, σ.queue.drop n, σ.flushed, σ.answered⟩ := by
  have same : due system = due σ.system := by
    unfold due
    rw [server, incoming]
    cases waits : flushing σ.system.server with
    | false => rfl
    | true => rw [settled waits, List.append_nil]
  refine ⟨orderly, ?_, fun b hb => F.queue b (List.mem_of_mem_drop hb), ?_, fun r hr b hb => ?_⟩
  · show σ.flushed = σ.answered + (due system).toNat
    rw [same]
    exact F.count
  · show ∀ b ∈ Server.held system.server.state, _
    rw [server]
    exact F.held
  · have hr : r ∈ responses system.incoming := hr
    rw [incoming] at hr
    rcases List.mem_append.mp hr with hr | hr
    · exact F.answers r hr b hb
    · exact young b (mem_data hr hb)

/-- **A flush** leaves nothing older than itself, if no queued message has a byte. -/
theorem Fresh.flush {σ : Reception} (F : Fresh σ) {os : Os Dated} {direction : Direction}
    {rest : List Command} {q : Program Dated} {system : System Dated} (n : Nat)
    (stdin : σ.system.stdin = .flush direction :: rest)
    (handled : σ.system.program.handle (.request os (.flush direction)) = .ok q)
    (clean : Discards σ (.system (.request os))) (orderly : Orderly system)
    (server : system.server = σ.system.server)
    (incoming : responses system.incoming =
      responses σ.system.incoming ++ responses (q.out.map System.msg)) :
    Fresh ⟨system, if empties σ.system (.request os) then [] else σ.queue.drop n,
      σ.flushed + (empties σ.system (.request os) && flushing σ.system.server).toNat,
      σ.answered⟩ := by
  obtain ⟨r, out, empty, -, accepted⟩ := Program.handle_flush handled
  obtain ⟨-, -, nothing, p, waits, command⟩ := F.orderly.aligned.asked stdin
  have one : responses system.incoming = [r] := by
    rw [incoming, nothing, out]
    rfl
  have emptied : empties σ.system (.request os) = (direction.receives && r.accepted) := by
    rw [empties, stdin, Bool.eq_iff_iff]
    simp [accepted, and_assoc]
  have receives : flushing σ.system.server = true → direction.receives = true := by
    intro hf
    obtain ⟨p', direction', waits', command', receives⟩ := waits_of_flushing hf
    obtain rfl := Option.some.inj (waits.symm.trans waits')
    obtain rfl := Command.flush.inj (command.symm.trans command')
    exact receives
  have settled : σ.flushed = σ.answered := by
    have count := F.count
    rw [due, nothing] at count
    simpa using count
  have counted : due system = (empties σ.system (.request os) && flushing σ.system.server) := by
    unfold due
    rw [server, one, emptied]
    cases hf : flushing σ.system.server with
    | false => exact (Bool.and_false _).symm
    | true => simp [receives hf]
  have noData : ∀ r' ∈ responses system.incoming, ∀ b : Dated, b ∉ r'.bytes := by
    intro r' hr' b hb
    rw [one] at hr'
    rw [List.mem_singleton.mp hr', empty] at hb
    exact absurd hb (by simp)
  refine ⟨orderly, ?_, fun b hb => ?_, fun b hb => ?_, fun r' hr' b hb => absurd hb (noData r' hr' b)⟩
  · show _ = σ.answered + (due system).toNat
    rw [settled, counted]
  · cases he : empties σ.system (.request os) with
    | true =>
      rw [he] at hb
      exact absurd hb (by simp)
    | false =>
      rw [he] at hb
      exact F.queue b (List.mem_of_mem_drop hb)
  · have hb : b ∈ Server.held system.server.state := hb
    rw [server] at hb
    by_cases both : empties σ.system (.request os) = true ∧ flushing σ.system.server = true
    · -- the framer was flushed with the call
      have framer := (F.orderly.flushing p waits direction command).2 (receives both.2)
      rw [Server.held, clean both.1 both.2, framer] at hb
      exact absurd hb (by simp)
    · have uncounted : (empties σ.system (.request os) && flushing σ.system.server) = false := by
        simpa using both
      rw [uncounted]
      exact F.held b hb

/-- The responses about once the C program has run. -/
theorem incoming_ran (σ : System Dated) (q : Program Dated) :
    responses (σ.server.mailbox ++ (σ.stdout ++ q.out).map System.msg) =
      responses σ.incoming ++ responses (q.out.map System.msg) := by
  rw [System.incoming_wrote, responses_append]

/-- While a flush is waited for, the main loop answers nothing. -/
theorem Fresh.unanswered {σ : Reception} (F : Fresh σ) {os : Os Dated} {q : Program Dated}
    (handled : σ.system.program.handle (.process os) = .ok q)
    (waits : flushing σ.system.server = true) : responses (q.out.map System.msg) = [] := by
  obtain ⟨p, direction, pending, flush, -⟩ := waits_of_flushing waits
  have idle := F.orderly.idle p direction pending flush
  have after := Program.uartProcess_idle os (p := σ.system.program.enter os) idle rfl
  rw [show (σ.system.program.enter os).uartProcess os = .ok q from handled] at after
  apply List.length_eq_zero_iff.mp
  rw [System.responses_map_msg]
  exact after.2

/-- **A request** is a flush, or leaves the queue and what was flushed as they are. -/
theorem Fresh.request {σ : Reception} (F : Fresh σ) {os : Os Dated} {command : Command}
    {rest : List Command} {q : Program Dated} {system : System Dated} (n : Nat)
    (supplied : Supplied σ.queue (.request os)) (stdin : σ.system.stdin = command :: rest)
    (handled : σ.system.program.handle (.request os command) = .ok q)
    (clean : Discards σ (.system (.request os))) (orderly : Orderly system)
    (server : system.server = σ.system.server)
    (incoming : responses system.incoming =
      responses σ.system.incoming ++ responses (q.out.map System.msg)) :
    Fresh ⟨system, if empties σ.system (.request os) then [] else σ.queue.drop n,
      σ.flushed + (empties σ.system (.request os) && flushing σ.system.server).toNat,
      σ.answered⟩ := by
  by_cases flush : ∃ direction, command = .flush direction
  · obtain ⟨direction, rfl⟩ := flush
    exact F.flush n stdin handled clean orderly server incoming
  · have other : empties σ.system (.request os) = false := by
      rw [empties, stdin]
      cases command with
      | flush direction => exact absurd ⟨direction, rfl⟩ flush
      | _ => rfl
    rw [other]
    refine F.ran (q := q) orderly n server incoming (fun b hb => ?_) fun waits => ?_
    · rw [Program.handle_data handled] at hb
      exact F.queue b (mem_queue.1 command supplied hb)
    · obtain ⟨p, direction, pending, waited, -⟩ := waits_of_flushing waits
      obtain ⟨-, -, -, p', pending', rfl⟩ := F.orderly.aligned.asked stdin
      obtain rfl := Option.some.inj (pending.symm.trans pending')
      exact absurd ⟨direction, waited⟩ flush

/-- **A step keeps everything young**, if a flush finds nothing queued. -/
theorem step_fresh {σ σ' : Reception} {e : Event} {out : List Label} (F : Fresh σ)
    (clean : Discards σ e) (h : step σ e = some (σ', out)) :
    Fresh σ' ∧ ∀ l ∈ out, ∀ b ∈ reported l.label, l.answered ≤ b.flushes := by
  cases e with
  | receive bytes =>
    obtain ⟨rfl, rfl⟩ := Prod.mk.inj (Option.some.inj h)
    refine ⟨⟨F.orderly, F.count, fun b hb => ?_, F.held, F.answers⟩, fun l hl => absurd hl (by simp)⟩
    rcases List.mem_append.mp hb with hb | hb
    · exact F.queue b hb
    · obtain ⟨octet, -, rfl⟩ := List.mem_map.mp hb
      exact Nat.le_refl _
  | discard =>
    obtain ⟨rfl, rfl⟩ := Prod.mk.inj (Option.some.inj h)
    exact ⟨⟨F.orderly, F.count, fun b hb => absurd hb (by simp), F.held, F.answers⟩,
      fun l hl => absurd hl (by simp)⟩
  | system e =>
    obtain ⟨supplied, system, out', took, rfl, rfl⟩ := step_system h
    have orderly := step_orderly F.orderly took
    have quiet : (∀ l ∈ out', reported l = []) →
        ∀ l ∈ out'.map (fun l => ⟨σ.answered, l⟩ : System.Label Dated → Label),
          ∀ b ∈ reported l.label, l.answered ≤ b.flushes := by
      intro none l hl b hb
      obtain ⟨l', hl', rfl⟩ := List.mem_map.mp hl
      rw [none l' hl'] at hb
      exact absurd hb (by simp)
    cases e with
    | turn now clock =>
      obtain ⟨young, old⟩ := F.turn took clean
      refine ⟨young, fun l hl b hb => ?_⟩
      obtain ⟨l', hl', rfl⟩ := List.mem_map.mp hl
      exact F.answered_le.trans (old l' hl' b hb)
    | call fromPid call =>
      cases System.step_cases took
      refine ⟨F.arrived orderly rfl rfl ?_ rfl, quiet (by simp [reported, Label.reported])⟩
      exact System.responses_arrived (by simp)
    | expire tref =>
      cases System.step_cases took
      refine ⟨F.arrived orderly rfl rfl ?_ rfl, quiet (by simp [reported, Label.reported])⟩
      exact System.responses_arrived (by simp)
    | deliver =>
      cases System.step_cases took with
      | deliver stdout =>
        refine ⟨F.arrived orderly rfl rfl ?_ rfl, quiet (by simp [reported, Label.reported])⟩
        exact congrArg responses (System.incoming_deliver stdout)
    | process os =>
      cases System.step_cases took with
      | @process _ q handled =>
        refine ⟨?_, quiet (by simp [reported])⟩
        have unanswered : accepts [.input (σ.system.program.input (.process os))] = false := rfl
        rw [unanswered, Bool.and_false]
        refine F.ran (q := q) orderly _ rfl (incoming_ran σ.system q) (fun b hb => ?_) fun waits => ?_
        · rw [Program.handle_data handled] at hb
          exact F.queue b (mem_queue.2 supplied hb)
        · exact F.unanswered handled waits
    | request os =>
      cases System.step_cases took with
      | @request _ command rest q stdin handled =>
        refine ⟨?_, quiet (by simp [reported])⟩
        have unanswered : accepts [.dispatched command,
            .input (σ.system.program.input (.request os command))] = false := rfl
        rw [unanswered, Bool.and_false]
        exact F.request _ supplied stdin handled clean orderly rfl (incoming_ran σ.system q)

/-! ## A flush of what is to be sent -/

/-- The steps that serve `flush(:transmit)`: the call, the request, and the reply. -/
def Transmits (σ : System Dated) : System.Event Dated → Prop
  | .turn _ _ => (∃ p, σ.server.pending = some p ∧ p.command = .flush .transmit) ∨
      (σ.server.pending = none ∧
        ∃ fromPid rest, σ.server.mailbox = .call fromPid (.flush .transmit) :: rest)
  | .request _ => ∃ rest, σ.stdin = .flush .transmit :: rest
  | _ => False

/-- Every byte and every message that was received is where it was. -/
structure Untouched (σ σ' : Reception) : Prop where
  queue : σ'.queue = σ.queue
  state : σ'.system.server.state = σ.system.server.state
  incoming : mailData σ'.system.incoming = mailData σ.system.incoming

theorem orderly_init : Orderly ({} : System Dated) where
  aligned := System.Quiet.aligned ⟨rfl, rfl, rfl⟩ rfl
  flushing p waits := absurd waits (by simp)
  idle p direction waits := absurd waits (by simp)

theorem orderly_of_reach {h : List Label} {σ : Reception} (r : Reach step anyStep {} h σ) :
    Orderly σ.system := by
  refine r.invariant (I := fun _ σ => Orderly σ.system) orderly_init ?_
  intro h σ e σ' out O _ took
  cases e with
  | receive bytes =>
    obtain ⟨rfl, -⟩ := Prod.mk.inj (Option.some.inj took)
    exact O
  | discard =>
    obtain ⟨rfl, -⟩ := Prod.mk.inj (Option.some.inj took)
    exact O
  | system e =>
    obtain ⟨-, system, out', moved, rfl, -⟩ := step_system took
    exact step_orderly O moved

/-- The reply to `flush(:transmit)`. -/
theorem untouched_reply {σ σ' : System Dated} (O : Orderly σ) {now clock : Int}
    {out : List (System.Label Dated)} {p : Pending Dated} (waits : σ.server.pending = some p)
    (flush : p.command = .flush .transmit)
    (took : System.step σ (.turn now clock) = some (σ', out)) :
    σ'.server.state = σ.server.state ∧ mailData σ'.incoming = mailData σ.incoming := by
  have passing := (O.flushing p waits .transmit flush).1
  obtain ⟨out', turned, -, stdout⟩ := server_turn took
  obtain ⟨r, rest, next, server, -⟩ := step_passing waits passing turned
  have empty : r.bytes = [] := by
    by_contra some
    obtain ⟨timeout, callTime, reading⟩ := (O.aligned.response next).2.2 some
    exact absurd (passing.symm.trans reading) (by simp)
  refine ⟨by rw [server], ?_⟩
  rcases next_eq_some next with ⟨m, heq, -⟩ | ⟨p', r', before, after, heq, -, mailbox, rfl, -⟩
  · exact absurd heq (by simp)
  · obtain ⟨rfl, rfl⟩ := Taken.response.inj heq
    have gone := mailData_insert before (after ++ σ.stdout.map System.msg) (m := .resp r) empty
    rw [System.incoming, System.incoming, server, stdout, mailbox]
    simpa using gone.symm

/-- The call of `flush(:transmit)`. -/
theorem untouched_call {σ σ' : System Dated} {now clock : Int} {out : List (System.Label Dated)}
    {fromPid : Pid} {rest : List (Msg Dated)} (idle : σ.server.pending = none)
    (mailbox : σ.server.mailbox = .call fromPid (.flush .transmit) :: rest)
    (took : System.step σ (.turn now clock) = some (σ', out)) :
    σ'.server.state = σ.server.state ∧ mailData σ'.incoming = mailData σ.incoming := by
  cases System.step_cases took with
  | @turn _ _ taken rest' ran next goes =>
    have found : Server.next σ.server = some (.message (.call fromPid (.flush .transmit)), rest) := by
      rw [Server.next, idle, mailbox]
    obtain ⟨rfl, rfl⟩ := Prod.mk.inj (Option.some.inj (next.symm.trans found))
    refine ⟨?_, ?_⟩
    · cases goes with
      | ask asks => cases asks
      | flush =>
        show { σ.server.state with framer := σ.server.state.framer.flush .transmit } = _
        rw [flush_transmit]
    · rw [System.incoming, System.incoming, mailbox]
      rfl

/-- **`flush(:transmit)`** touches nothing that was received. -/
theorem step_untouched {σ σ' : Reception} (O : Orderly σ.system) {e : System.Event Dated}
    {out : List Label} (transmits : Transmits σ.system e)
    (h : step σ (.system e) = some (σ', out)) : Untouched σ σ' := by
  obtain ⟨-, system, out', took, rfl, -⟩ := step_system h
  cases e with
  | turn now clock =>
    obtain ⟨out'', -, rfl, -⟩ := server_turn took
    have kept : σ.queue.drop (input (out''.map .server)).length = σ.queue := by
      rw [input_server]
      rfl
    rcases transmits with ⟨p, waits, flush⟩ | ⟨idle, fromPid, rest, mailbox⟩
    · obtain ⟨state, incoming⟩ := untouched_reply O waits flush took
      exact ⟨kept, state, incoming⟩
    · obtain ⟨state, incoming⟩ := untouched_call idle mailbox took
      exact ⟨kept, state, incoming⟩
  | request os =>
    obtain ⟨rest, stdin⟩ := transmits
    cases System.step_cases took with
    | @request _ command rest' q stdin' handled =>
      obtain ⟨rfl, rfl⟩ := List.cons.inj (stdin'.symm.trans stdin)
      obtain ⟨r, sent, empty, -, -⟩ := Program.handle_flush handled
      refine ⟨?_, rfl, ?_⟩
      · show (if empties σ.system (.request os) then [] else _) = _
        rw [empties, stdin]
        rfl
      · have noData : q.data = [] := by
          rw [Program.data, sent]
          exact (List.append_nil _).trans empty
        exact (System.mailData_wrote σ.system q).trans (by rw [noData, List.append_nil])
  | _ => exact transmits.elim

theorem fresh_init : Fresh {} where
  orderly := orderly_init
  count := rfl
  queue b hb := absurd hb (by simp)
  held b hb := absurd hb (by simp [Server.held, Framer.buffered])
  answers r hr := absurd hr (by simp [System.incoming, responses])

/-- **What was received is flushed**, and what was not to be flushed is not. In every run whose
flushes find no byte in the queued messages, and whose late notifications leave none in the
framer, no read returns and no framing timeout reports a byte that came before a flush that has
been replied `:ok`. In any run `flush(:transmit)` leaves all that was received where it is. -/
theorem flush_discards (h : List Label) (σ : Reception) :
    (Reach step (fun _ => Discards) {} h σ →
      ∀ l ∈ h, ∀ b ∈ reported l.label, l.answered ≤ b.flushes) ∧
    (Reach step anyStep {} h σ → ∀ (e : System.Event Dated) (σ' : Reception) (out : List Label),
      Transmits σ.system e → step σ (.system e) = some (σ', out) → Untouched σ σ') := by
  constructor
  · intro r
    have keep : ∀ (h : List Label) (σ : Reception) e σ' out,
        (Fresh σ ∧ ∀ l ∈ h, ∀ b ∈ reported l.label, l.answered ≤ b.flushes) → Discards σ e →
        step σ e = some (σ', out) →
        Fresh σ' ∧ ∀ l ∈ h ++ out, ∀ b ∈ reported l.label, l.answered ≤ b.flushes := by
      intro h σ e σ' out before clean took
      obtain ⟨fresh, new⟩ := step_fresh before.1 clean took
      refine ⟨fresh, fun l hl => ?_⟩
      rcases List.mem_append.mp hl with hl | hl
      · exact before.2 l hl
      · exact new l hl
    exact (r.invariant (I := fun h σ => Fresh σ ∧
      ∀ l ∈ h, ∀ b ∈ reported l.label, l.answered ≤ b.flushes)
      ⟨fresh_init, fun l hl => absurd hl (by simp)⟩ keep).2
  · intro r e σ' out transmits took
    exact step_untouched (orderly_of_reach r) transmits took

/-- A call from the client to its reply, with what the operating system answers. -/
def calls (call : Server.Call) (os : Os Dated) : List Event :=
  [.system (.call 0 call), .system (.turn 0 0), .system (.request os), .system .deliver,
    .system (.turn 0 0)]

def openLine : List Event :=
  calls (.open ttyS0 [.active false, .framing (.module .line)]) { opened := fun _ => .ok (3, .raw) }

/-- A line and the beginning of another are received, the line is read, what was received is
flushed, and another line is received and read. -/
def flushedInLine : List Event :=
  openLine ++ [.receive [65, 10, 66]] ++
    calls (.read 100) { reads := [.ok [⟨65, 0⟩, ⟨10, 0⟩, ⟨66, 0⟩]] } ++ calls (.flush .receive) {} ++
    [.receive [67, 10]] ++ calls (.read 100) { reads := [.ok [⟨67, 1⟩, ⟨10, 1⟩]] }

theorem flush_discards_inLine :
    ∃ r, exec step {} flushedInLine = some r ∧ r.1.answered = 1 ∧
      r.2.flatMap (fun l => reported l.label) = [⟨65, 0⟩, ⟨67, 1⟩] ∧
      ∀ l ∈ r.2, ∀ b ∈ reported l.label, l.answered ≤ b.flushes := by
  have clean : permitted step (fun σ e => decide (Discards σ e)) {} flushedInLine = true := by decide
  cases ran : exec step {} flushedInLine with
  | none => exact absurd ran (by decide)
  | some r =>
    have reach := (Reach.of_permitted .start clean ran).weaken fun _ _ _ => of_decide_eq_true
    refine ⟨r, rfl, ?_, ?_, (flush_discards _ _).1 reach⟩
    · obtain rfl := Option.some.inj (ran.symm.trans rfl)
      rfl
    · obtain rfl := Option.some.inj (ran.symm.trans rfl)
      rfl

/-- Two lines are received at once, the first is read, and what was received is flushed. -/
def flushedInQueue : List Event :=
  openLine ++ [.receive [65, 10, 66, 10]] ++
    calls (.read 100) { reads := [.ok [⟨65, 0⟩, ⟨10, 0⟩, ⟨66, 0⟩, ⟨10, 0⟩]] } ++
    calls (.flush .both) {} ++ [.system (.call 0 (.read 100)), .system (.turn 0 0)]

/-- The second line is read after the flush. -/
theorem not_flush_discards_inQueue : ¬ ∀ (h : List Label) (σ : Reception),
    Reach step anyStep {} h σ → ∀ l ∈ h, ∀ b ∈ reported l.label, l.answered ≤ b.flushes := by
  intro discards
  have ran : exec step {} flushedInQueue = some (_, _) := rfl
  exact absurd (discards _ _ (.of_exec ran)) (by decide)

end Reception

end CircuitsUart
