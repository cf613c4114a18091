import CircuitsUart.Framing.RoundTrip
import CircuitsUart.System.OneMode
import CircuitsUart.System.Sender

/-!
# From one end of a line to the other

Two computers, each with a GenServer and a C program, and a line between their ports: what one
device has taken is on its way to the other, which reads it in pieces of any size. Neither knows
where a message ends but by its framer.

What comes of it is put together from the two ends. The device that sends has taken the framed data
of the writes, in the order of the calls (`Sent`); the GenServer that receives has been fed what was
read, in the order in which it was read (`Ordered`); and the framer takes apart what the other one
put together (`Line.Process.messages`).

The line itself is two lists of bytes, and it loses nothing. That is the one assumption about what
is outside of the two computers; speed and parity, which a real line needs to be equal at both
ends, are not part of it.

Both ends do the same, so there is one invariant with the side as its parameter (`Linked`), and a
step at one end is, for the other, bytes that arrive or nothing.
-/

set_option autoImplicit false

namespace CircuitsUart

open Lib Port Server

namespace Server

variable {β : Type}

/-- The calls that leave alone the framer, the mode and what is on its way. -/
def Call.keepsLine : Call → Bool
  | .open _ _ | .close | .configure _ | .flush _ => false
  | _ => true

theorem Call.keepsMode_of_keepsLine {call : Call} (keeps : call.keepsLine = true) :
    call.keepsMode = true := by
  cases call <;> first | rfl | exact absurd keeps (by simp [keepsLine])

theorem Call.keepsFramer_of_keepsLine {call : Call} (keeps : call.keepsLine = true) :
    call.keepsFramer = true := by
  cases call <;> first | rfl | exact absurd keeps (by simp [keepsLine])

theorem Call.keepsFraming_of_keepsLine {call : Call} (keeps : call.keepsLine = true) :
    call.keepsFraming = true := by
  cases call <;> first | rfl | exact absurd keeps (by simp [keepsLine])

/-- What `write/3` is given. -/
def Call.data? : Call → Option (List UInt8)
  | .write data _ => some data
  | _ => none

/-- The data of all writes that have been called. -/
def writes (h : List (Label β)) : List (List UInt8) := (called h).filterMap fun c => c.2.data?

/-- The data of those that have their reply. -/
def writesAnswered (h : List (Label β)) : List (List UInt8) :=
  (answered h).filterMap fun e => e.1.data?

/-- Each of these was answered with `:ok`. -/
def WritesOk (h : List (Label β)) : Prop :=
  ∀ data timeout reply, (.write data timeout, reply) ∈ answered h → reply = .port .ok

/-- A write that has its reply has been called. -/
theorem mem_writes {h : List (Label β)} {m : List UInt8} (inside : m ∈ writesAnswered h) :
    m ∈ writes h := by
  obtain ⟨e, replied, data⟩ := List.mem_filterMap.mp inside
  obtain ⟨⟨c, r⟩, both, rfl⟩ := List.mem_map.mp replied
  exact List.mem_filterMap.mpr ⟨c, (List.of_mem_zip both).1, data⟩

/-- `:ok` from the port. -/
def Reply.isOk : Reply β → Bool
  | .port .ok => true
  | _ => false

theorem Reply.eq_ok {reply : Reply β} (ok : reply.isOk = true) : reply = .port .ok := by
  unfold isOk at ok
  split at ok
  · rfl
  · exact absurd ok (by simp)

/-- The labels but those of a frame that has timed out. -/
def Label.inTime : Label β → Bool
  | .timedOut .. => false
  | _ => true

theorem writesAnswered_eq {h : List (Label β)} {done rest : List (Pid × Call)}
    (calls : called h = done ++ rest) (length : done.length = (replies h).length) :
    writesAnswered h = done.filterMap fun c => c.2.data? := by
  rw [writesAnswered, answered_eq calls length, List.filterMap_map]
  conv_rhs => rw [← List.map_fst_zip length.le, List.filterMap_map]
  rfl

end Server

/-! ## What comes back -/

namespace Framer

/-- What `add_framing/2` makes of `m` comes back as the one message `m`. -/
def Fits : Framer UInt8 → List UInt8 → Prop
  | .none, _ => False
  | .fourByte _, m => m.length = 4
  | .line s, m => m.length ≤ s.maxLength ∧ Line.Clean s.separator m

theorem fourByte_messages {messages : List (List UInt8)} (fits : ∀ m ∈ messages, m.length = 4) :
    FourByte.Process messages.flatten (messages.map .whole) [] := by
  induction messages with
  | nil => exact .short (by decide)
  | cons m messages ih =>
    obtain ⟨a, b, c, d, rfl⟩ := List.length_eq_four.mp (fits m List.mem_cons_self)
    exact .batch (ih fun m' later => fits m' (List.mem_cons_of_mem _ later))

theorem framing_init {module : FramingModule} {args : Line.Args} (hf : module ≠ .none) :
    (init module args : Framer UInt8).framing ≠ .none := by
  cases module with
  | none => exact absurd rfl hf
  | fourByte | line => simp [init, Framer.framing]

section

variable {module : FramingModule} {args : Line.Args} (hf : module ≠ .none)
  (usable : (init module args : Framer UInt8).Usable) {messages : List (List UInt8)}
  (fits : ∀ m ∈ messages, (init module args : Framer UInt8).Fits m)

include hf usable fits

/-- **All of it** comes back, and nothing is kept. -/
theorem removeFraming_framed :
    (init module args : Framer UInt8).removeFraming
        (messages.flatMap fun m => ((init module args : Framer UInt8).addFraming m).1) =
      some (.ok, messages.map .whole, init module args) := by
  cases module with
  | none => exact absurd rfl hf
  | fourByte =>
    have process := fourByte_messages fits
    have back : FourByte.removeFraming messages.flatten [] =
        (.ok, messages.map .whole, []) := FourByte.removeFraming_iff.mpr ⟨process, rfl⟩
    have same : (messages.flatMap fun m => ((init .fourByte args : Framer UInt8).addFraming m).1) =
        messages.flatten := by
      rw [← List.flatMap_id]
      rfl
    rw [same]
    simp only [init, Framer.removeFraming, back]
  | line =>
    let s : Line.State UInt8 := Line.init args
    have ok : s.Ok := usable
    have process := Line.Process.messages ok.sep_ne (fun m inside => (fits m inside).1)
      fun m inside => (fits m inside).2
    have back : Line.removeFraming (messages.flatMap (· ++ s.separator)) s =
        some (.ok, messages.map .whole, s) :=
      Line.removeFraming_iff.mpr ⟨[], [], process, rfl, rfl⟩
    have same : (messages.flatMap fun m => ((init .line args : Framer UInt8).addFraming m).1) =
        messages.flatMap (· ++ s.separator) := rfl
    rw [same]
    simp only [init, Framer.removeFraming, show Line.init args = s from rfl, back]

/-- The front of it comes back as the first of them. -/
theorem removeFraming_front {bytes : List UInt8} {rc : Rc} {ms : List (Message UInt8)}
    {f : Framer UInt8}
    (front : bytes <+: messages.flatMap fun m => ((init module args : Framer UInt8).addFraming m).1)
    (removed : (init module args : Framer UInt8).removeFraming bytes = some (rc, ms, f)) :
    ms <+: messages.map .whole := by
  have framing : (init module args : Framer UInt8).framing ≠ .none := framing_init hf
  have whole := removeFraming_framed hf usable fits
  obtain ⟨later, same⟩ := front
  obtain ⟨rc', ms', f', rest, -⟩ := exists_removeFraming (usable.removeFraming removed) later
  have both := removeFraming_append framing removed rest
  rw [same, whole, Option.some.injEq, Prod.mk.injEq, Prod.mk.injEq] at both
  exact ⟨ms', both.2.1.symm⟩

end

end Framer

namespace System

/-! ## What the calls have put on the wire -/

variable {β : Type} {frame : List UInt8 → List UInt8} {h : List (Label β)} {w : List UInt8}
  {σ : System β}

theorem flatten_carried {parts : List (List UInt8)} {answers : List (Server.Call × Reply β)}
    (carried : List.Forall₂ (Carried frame) parts answers)
    (ok : ∀ data timeout reply, (.write data timeout, reply) ∈ answers → reply = .port .ok) :
    parts.flatten = (answers.filterMap fun e => e.1.data?).flatMap frame := by
  induction carried with
  | nil => rfl
  | @cons part answer parts answers one _ ih =>
    have rest := ih fun data timeout reply later =>
      ok data timeout reply (List.mem_cons_of_mem _ later)
    obtain ⟨call, reply⟩ := answer
    cases call with
    | write data timeout =>
      obtain ⟨-, whole⟩ := one
      rw [List.flatten_cons, rest, whole (ok data timeout reply List.mem_cons_self)]
      rfl
    | _ =>
      have one : part = [] := one
      rw [List.flatten_cons, rest, one]
      rfl

/-- The writes that were answered are on the wire, and the front of the one that waits. -/
theorem Sent.takes (S : Sent frame h w σ) (ok : WritesOk (serverLabels h)) :
    ∃ part, w = (writesAnswered (serverLabels h)).flatMap frame ++ part ∧ Now part σ := by
  obtain ⟨parts, part, wire, carried, now⟩ := S.parts
  refine ⟨part, ?_, now⟩
  rw [wire, flatten_carried carried ok]
  rfl

/-- **What is on the wire** is the front of all that was written, in the order of the calls. -/
theorem Sent.front (S : Sent frame h w σ) (ok : WritesOk (serverLabels h)) :
    w <+: (writes (serverLabels h)).flatMap frame := by
  obtain ⟨part, wire, now⟩ := S.takes ok
  obtain ⟨done, served, calls, replied, waiting⟩ := S.served.calls
  have first := calls.trans (List.append_assoc ..)
  have serving : part <+: (served.filterMap fun c => c.2.data?).flatMap frame := by
    unfold Now at now
    cases waits : σ.server.pending with
    | none =>
      rw [waits] at now
      have now : part = [] := now
      rw [now]
      exact List.nil_prefix
    | some p =>
      rw [waits] at waiting now
      obtain ⟨⟨pid, call⟩, _, ⟨-, serves⟩, last, rfl⟩ := List.forall₂_cons_right_iff.mp waiting
      cases last
      have coherent := S.served.aligned.coherent p waits
      cases serves with
      | write data timeout framer fromPid =>
        obtain rfl : framer = σ.server.state.framer := coherent
        have under_way : Part (σ.server.state.framer.addFraming data).1 part σ := now
        rw [S.frames data] at under_way
        exact under_way.front.trans (List.prefix_append _ _)
      | _ =>
        have now : part = [] := now
        rw [now]
        exact List.nil_prefix
  rw [wire, writesAnswered_eq first replied.length_eq, writes, first, List.filterMap_append,
    List.filterMap_append, List.flatMap_append, List.flatMap_append]
  exact (List.prefix_append_right_inj _).mpr (serving.trans (List.prefix_append _ _))

end System

/-! ## Two ends -/

/-- The ends of a line. -/
inductive Side
  | near
  | far
  deriving DecidableEq

def Side.other : Side → Side
  | .near => .far
  | .far => .near

@[simp] theorem Side.other_other (side : Side) : side.other.other = side := by cases side <;> rfl

@[simp] theorem Side.other_ne (side : Side) : side.other ≠ side := by cases side <;> decide

theorem Side.eq_or_other (a b : Side) : a = b ∨ a = b.other := by cases a <;> cases b <;> decide

/-- What is at either end, and the bytes that are on their way to it. -/
structure Link where
  system : Side → System UInt8
  line : Side → List UInt8

namespace Link

/-- One of the two takes a step. What it reads is what was on its way to it, and what its device
takes is on its way to the other. -/
def step (l : Link) (e : Side × System.Event UInt8) :
    Option (Link × List (Side × System.Label UInt8)) :=
  match System.step (l.system e.1) e.2 with
  | none => none
  | some (σ, out) =>
    if System.inputs out <+: l.line e.1 then
      some ({
        system := fun side => if side = e.1 then σ else l.system side
        line := fun side =>
          if side = e.1 then (l.line side).drop (System.inputs out).length
          else l.line side ++ System.wire (l.system e.1) e.2 },
        out.map fun label => (e.1, label))
    else none

/-- What happened at one end. -/
def of (side : Side) (h : List (Side × System.Label UInt8)) : List (System.Label UInt8) :=
  h.filterMap fun label => if label.1 = side then some label.2 else none

variable {side : Side} {h : List (Side × System.Label UInt8)}

/-- It has happened at this end, -/
theorem of_here (out : List (System.Label UInt8)) :
    of side (h ++ out.map fun label => (side, label)) = of side h ++ out := by
  simp [of, List.filterMap_map]

/-- and not at the other. -/
theorem of_there (out : List (System.Label UInt8)) :
    of side.other (h ++ out.map fun label => (side, label)) = of side.other h := by
  have ne : ¬ side = side.other := (Side.other_ne side).symm
  simp [of, List.filterMap_map, ne]

/-- Calls leave the line alone. -/
def Keeps (e : Side × System.Event UInt8) : Bool :=
  match e.2 with
  | .call _ c => c.keepsLine
  | _ => true

variable {f₀ : Framer UInt8} {l l' : Link} {e : System.Event UInt8}
  {out : List (Side × System.Label UInt8)}

/-- What a step of one end does. -/
theorem step_cases (took : step l (side, e) = some (l', out)) :
    ∃ σ labels, System.step (l.system side) e = some (σ, labels) ∧
      out = labels.map (fun label => (side, label)) ∧
      l'.system side = σ ∧ l'.system side.other = l.system side.other ∧
      System.inputs labels ++ l'.line side = l.line side ∧
      l'.line side.other = l.line side.other ++ System.wire (l.system side) e := by
  unfold step at took
  split at took
  · exact absurd took (by simp)
  · next σ labels stepped =>
    split at took
    · next reads =>
      obtain ⟨rfl, rfl⟩ := Prod.mk.inj (Option.some.inj took)
      refine ⟨σ, labels, stepped, rfl, if_pos rfl, if_neg (Side.other_ne side), ?_,
        if_neg (Side.other_ne side)⟩
      obtain ⟨rest, same⟩ := reads
      show System.inputs labels ++ (if side = side then _ else _) = _
      rw [if_pos rfl, ← same, List.drop_left]
    · exact absurd took (by simp)

/-- What one end and the way from it to the other are like. -/
structure Linked (f₀ : Framer UInt8) (h : List (Side × System.Label UInt8)) (l : Link)
    (side : Side) : Prop where
  sent : System.Sent (fun data => (f₀.addFraming data).1) (of side h)
    (System.inputs (of side.other h) ++ l.line side.other) (l.system side)
  ordered : System.Ordered f₀ (of side h) (l.system side)
  inMode : ∃ active, System.InMode active (l.system side)

/-- **A step at either end** keeps the account of what is on its way between them. -/
theorem step_linked (hf : f₀.framing ≠ .none) {moved : Side} (L : ∀ side, Linked f₀ h l side)
    (keeps : Keeps (moved, e) = true) (took : step l (moved, e) = some (l', out)) (side : Side) :
    Linked f₀ (h ++ out) l' side := by
  obtain ⟨σ, labels, stepped, rfl, here, there, read, written⟩ := step_cases took
  have keepsFramer : e.keepsFramer = true := by
    cases e with
    | call pid c => exact Call.keepsFramer_of_keepsLine keeps
    | _ => rfl
  have keepsFraming : e.keepsFraming = true := by
    cases e with
    | call pid c => exact Call.keepsFraming_of_keepsLine keeps
    | _ => rfl
  have keepsMode : e.keepsMode = true := by
    cases e with
    | call pid c => exact Call.keepsMode_of_keepsLine keeps
    | _ => rfl
  rcases Side.eq_or_other side moved with rfl | rfl
  · obtain ⟨sent, ordered, active, inMode⟩ := L side
    subst here
    refine ⟨?_, ?_, active, System.step_inMode inMode keepsMode stepped⟩
    · rw [of_here, of_there, written, ← List.append_assoc]
      exact System.step_sent sent keepsFraming stepped
    · rw [of_here]
      exact System.step_ordered hf ordered keepsFramer (inMode.inTurn e) stepped
  · obtain ⟨sent, ordered, inMode⟩ := L moved.other
    rw [Side.other_other] at sent
    refine ⟨?_, ?_, there ▸ inMode⟩
    · rw [Side.other_other, of_here, of_there, there, System.inputs_append, List.append_assoc, read]
      exact sent
    · rw [of_there, there]
      exact ordered

/-! ## Every run -/

/-- A port has been opened with the framer `f₀`, and both processes are in the same mode. -/
structure Ready (f₀ : Framer UInt8) (σ : System UInt8) : Prop where
  started : System.Started f₀ σ
  silent : σ.program.out = []
  agree : σ.server.state.isActive = σ.program.uart.activeModeEnabled

theorem linked_init (hf : f₀.framing ≠ .none) (ready : ∀ side, Ready f₀ (l.system side))
    (empty : ∀ side, l.line side = []) (side : Side) : Linked f₀ [] l side := by
  obtain ⟨started, silent, agree⟩ := ready side
  refine ⟨?_, System.ordered_init hf started, _, System.inMode_init started agree⟩
  rw [empty]
  exact System.sent_init (started.atRest silent)

theorem Linked.of_reach (hf : f₀.framing ≠ .none) {l₀ : Link}
    (ready : ∀ side, Ready f₀ (l₀.system side)) (empty : ∀ side, l₀.line side = [])
    (r : Reach step (fun _ _ e => Keeps e = true) l₀ h l) (side : Side) : Linked f₀ h l side := by
  apply r.invariant (I := fun h l => ∀ side, Linked f₀ h l side)
  · exact linked_init hf ready empty
  · intro h l e l' out L keeps took
    exact step_linked hf L keeps took

/-- No write is under way. -/
def Idle (σ : System UInt8) : Prop :=
  ∀ p data timeout, σ.server.pending = some p → p.command ≠ .write data timeout

/-- Without a write under way nothing more than what was answered is on the wire. -/
theorem now_of_idle {σ : System UInt8} {part : List UInt8} (idle : Idle σ)
    (now : System.Now part σ) : part = [] := by
  unfold System.Now at now
  split at now
  · next data timeout writes =>
    obtain ⟨p, waits, command⟩ := Option.map_eq_some_iff.mp writes
    exact absurd command (idle p data timeout waits)
  · exact now

/-- **Messages arrive.** Two ports have just been opened with the same framer, `FourByte`, or `Line`
with room for a byte and a separator (`usable`), each in either mode, the same in its GenServer and
its C program. At both ends any processes write, read and make other calls that neither open, close,
configure nor flush, and the devices take and return bytes in pieces of any size, or fail. What is
written at one end are messages of that framer (`fits`): of four bytes each, or no longer than
`max_length` and such that the separator behind one is the first that occurs. As long as the writes
that this end has answered were answered with `:ok` and no frame times out at the other, the messages
that the other end has delivered or queued are the first of those that were written, whole and in the
order of the calls. None is missing once no write is under way and nothing is on its way to the other
GenServer: then they are the messages whose writes have been answered. -/
theorem messages_arrive {module : FramingModule} {args : Line.Args} (hf : module ≠ .none)
    (usable : (Framer.init module args : Framer UInt8).Usable) {l₀ : Link}
    (ready : ∀ side, Ready (Framer.init module args) (l₀.system side))
    (empty : ∀ side, l₀.line side = [])
    (r : Reach step (fun _ _ e => Keeps e = true) l₀ h l) (side : Side)
    (fits : ∀ m ∈ writes (System.serverLabels (of side h)), (Framer.init module args).Fits m)
    (ok : WritesOk (System.serverLabels (of side h)))
    (inTime : ∀ tref framer timeout,
      .timedOut tref framer timeout ∉ System.serverLabels (of side.other h)) :
    delivered (System.serverLabels (of side.other h)) ++
          (l.system side.other).server.state.queuedMessages <+:
        (writes (System.serverLabels (of side h))).map .whole ∧
      (Idle (l.system side) → l.line side.other = [] →
        mailData (l.system side.other).incoming = [] →
        delivered (System.serverLabels (of side.other h)) ++
            (l.system side.other).server.state.queuedMessages =
          (writesAnswered (System.serverLabels (of side h))).map .whole) := by
  have framing : (Framer.init module args : Framer UInt8).framing ≠ .none :=
    Framer.framing_init hf
  have L := Linked.of_reach framing ready empty r
  have sent := (L side).sent
  have ordered := (L side.other).ordered
  obtain ⟨rc, removed⟩ := ordered.framing usable inTime
  rw [ordered.account]
  refine ⟨?_, fun idle noLine noMail => ?_⟩
  · refine Framer.removeFraming_front hf usable fits ?_ removed
    -- what was fed was read, and what was read was taken at the other end
    have read : fed (System.serverLabels (of side.other h)) <+:
        System.inputs (of side.other h) := by
      rw [ordered.stream]
      exact List.prefix_append _ _
    exact (read.trans (List.prefix_append _ _)).trans (sent.front ok)
  · obtain ⟨part, wire, now⟩ := sent.takes ok
    obtain rfl := now_of_idle idle now
    rw [noLine, List.append_nil, List.append_nil, ordered.stream, noMail, List.append_nil] at wire
    have some : ∀ m ∈ writesAnswered (System.serverLabels (of side h)),
        (Framer.init module args).Fits m := fun m inside => fits m (mem_writes inside)
    have all := Framer.removeFraming_framed hf usable some
    rw [wire, all, Option.some.injEq, Prod.mk.injEq, Prod.mk.injEq] at removed
    exact removed.2.1.symm

/-- The near end in passive mode, the far end in active mode. -/
def opened : Link where
  system side := System.opened (side = .far)
  line _ := []

/-- A line is written in two pieces and read in two others. -/
def twoPieces : List (Side × System.Event UInt8) :=
  [(.near, .call 7 (.write [65, 66] 100)), (.near, .turn 0 0),
    (.near, .request { writes := [.ok 2] }), (.far, .process { reads := [.ok [65]] }),
    (.far, .deliver), (.far, .turn 0 0), (.near, .process { writes := [.ok 1] }),
    (.near, .deliver), (.near, .turn 0 0), (.far, .process { reads := [.ok [66, 10]] }),
    (.far, .deliver), (.far, .turn 0 0)]

theorem messages_arrive_twoPieces :
    ∃ l h, exec step opened twoPieces = some (l, h) ∧
      delivered (System.serverLabels (of .far h)) ++
        (l.system .far).server.state.queuedMessages = [.whole [65, 66]] := by
  have keeps : permitted step (fun _ e => Keeps e) opened twoPieces = true := by decide
  have facts : ((exec step opened twoPieces).any fun r =>
      writes (System.serverLabels (of .near r.2)) = [[65, 66]] ∧
      writesAnswered (System.serverLabels (of .near r.2)) = [[65, 66]] ∧
      (answered (System.serverLabels (of .near r.2))).all (fun e => e.2.isOk) = true ∧
      (System.serverLabels (of .far r.2)).all Label.inTime = true ∧
      (r.1.system .near).server.pending.isNone = true ∧ r.1.line .far = [] ∧
      mailData (r.1.system .far).incoming = []) = true := by decide
  have ready : ∀ side, Ready (Framer.init .line {}) (opened.system side) := fun side =>
    ⟨System.started_opened _, rfl, rfl⟩
  have usable : (Framer.init .line {} : Framer UInt8).Usable :=
    Framer.usable_init fun _ => ⟨by decide, by decide⟩
  have fits : (Framer.init .line {} : Framer UInt8).Fits [65, 66] := by
    show [65, 66].length ≤ 4096 ∧ Line.Clean [10] [65, 66]
    decide
  cases ran : exec step opened twoPieces with
  | none =>
    rw [ran] at facts
    exact absurd facts (by simp)
  | some result =>
    obtain ⟨l, h⟩ := result
    rw [ran, Option.any_some, decide_eq_true_eq] at facts
    obtain ⟨written, replied, ok, inTime, nobody, noLine, noMail⟩ := facts
    have idle : Idle (l.system .near) := fun p data timeout waits => by
      rw [waits] at nobody
      exact absurd nobody (by simp)
    have reach := Reach.of_permitted .start keeps ran
    obtain ⟨-, all⟩ := messages_arrive (by simp) usable ready (fun _ => rfl) reach .near
      (fun m inside => by
        obtain rfl := List.mem_singleton.mp (written ▸ inside)
        exact fits)
      (fun _ _ _ inside => Reply.eq_ok (List.all_eq_true.mp ok _ inside))
      (fun _ _ _ inside => absurd (List.all_eq_true.mp inTime _ inside) (by simp [Label.inTime]))
    refine ⟨l, h, rfl, ?_⟩
    exact (all idle noLine noMail).trans (congrArg (List.map Message.whole) replied)

end Link

end CircuitsUart
