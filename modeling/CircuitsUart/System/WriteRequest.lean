import CircuitsUart.Port.Erlcmd
import CircuitsUart.Port.Request
import CircuitsUart.Port.Writing
import CircuitsUart.Server.Callbacks

/-!
# How long a write may be

`handle_call({:write, ..})` frames the data and sends the request, whatever its size;
`erlcmd_try_dispatch` exits when a request is longer than its buffer. A write is answered exactly
if what the framer makes of the data leaves room for the rest of the request.

The bound is computed and not given: the size of the buffer, less the two bytes of length, the
version, two tuples, the command's name, the header of the binary and the timeout, which takes
more bytes the larger it is. So the theorem is exact on both sides of it, for every framer and
every timeout that can be asked for.

That a request which fits is answered is the work of three modules, on its way through the buffer
(`Port.Erlcmd`), through the decoders (`Port.Encoded`) and to the device (`Port.Writing`). Here they
are put behind one another; that a request which does not fit ends the program takes two bytes.
-/

set_option autoImplicit false

namespace CircuitsUart

open Lib Port

/-- What the framer adds to the data of a write. -/
def Framer.overhead {β : Type} : Framer β → Nat
  | .line state => state.separator.length
  | _ => 0

namespace Server

variable {β : Type}

/-- The data `call_port` is given. -/
def State.framed (s : State β) (data : List UInt8) : List UInt8 := (s.framer.addFraming data).1

/-- The body of the request for a write. -/
def State.writeBody (tag : Request.AtomTag) (s : State β) (data : List UInt8) (timeout : Nat) :
    List UInt8 :=
  Request.encodeWrite tag (s.framed data) timeout

theorem State.length_framed (s : State β) (data : List UInt8) :
    (s.framed data).length = data.length + s.framer.overhead := by
  unfold State.framed Framer.addFraming Framer.overhead Line.addFraming
  cases s.framer with
  | none => rfl
  | fourByte rxBuffer => rfl
  | line state => exact List.length_append

/-- How the port stands that was asked, idle, to write `data`: it waits for the device, or it has
answered with `:ok` or an error. -/
inductive Attending (p : Program β) (data : List UInt8) (timeout : Int) (start : UInt64)
    (later : List Writing.Attempt) (q : Program β) : Prop
  | waiting (pending : q.uart.writeData = some data) (silent : q.out = p.out)
    (inTime : ¬ Writing.TimedOut timeout start later)
    (runs : ∀ os, Program.Returns (fun _ => True) (q.continueInProgressWrite os data))
  | answered {rest : List (Out β)} (result : Except Reason Unit) (done : q.uart.writeData = none)
    (sent : q.out = p.out ++ .response (Writing.answer result) :: rest)
    (others : Writing.Others p rest)

variable [Octet β]

/-- The request for a write reaches its handler and is answered. -/
structure WriteAnswered (tag : Request.AtomTag) (s : State β) (data : List UInt8)
    (timeout : Nat) : Prop where
  /-- The length of the request can be written in two bytes. -/
  length : (s.writeBody tag data timeout).length < 2 ^ 16
  /-- Whatever the pieces the request is read in, no `read` ends the program. -/
  accepted : ∀ handler : Erlcmd, handler.Sized → handler.index = 0 → ∀ log σ,
    Reach Erlcmd.step anyStep ⟨handler, Erlcmd.request (s.writeBody tag data timeout)⟩ log σ →
    ∀ e : Erlcmd.Event, e.Possible σ → (Erlcmd.step σ e).isSome = true
  /-- When the pipe is empty the handler has been called once, and what it does with its memory is
  what it does with the write. -/
  dispatched : ∀ handler : Erlcmd, handler.Sized → handler.index = 0 → ∀ log σ,
    Reach Erlcmd.step anyStep ⟨handler, Erlcmd.request (s.writeBody tag data timeout)⟩ log σ →
    σ.unread = [] → ∃ called, log = [called] ∧ ∀ (os : Os β) (p : Program β),
      Encoded.handleElixirRequest os called.buffer p =
        some (p.handleElixirRequest os (.write (s.framed data) timeout))
  /-- An open port without a pending call attends to the write. -/
  attended : ∀ p : Program β, p.uart.fd.isSome = true → p.pending = false → ∀ os,
    Program.Returns (fun q => ∀ later r, Reach Writing.step anyStep q later r →
      Attending p (s.framed data) (toInt timeout) os.writeClock later r)
      (p.handleElixirRequest os (.write (s.framed data) timeout))
  /-- The call replies with what the port answers. -/
  replies : ∀ timers fromPid clock, ∃ p,
    (handleCall s timers fromPid clock (.write data timeout)).pending = some p ∧
    p.command = .write (s.framed data) timeout ∧
    ∀ s' timers' now clock' r, (resume s' timers' p now clock' r).map Ran.out =
      some [.replied fromPid (.port r)]

/-! ## A request that fits -/

omit [Octet β] in
/-- What is left of the buffer when the other parts of a request are in it: its length, the tuples
and the names in them, and the timeout. -/
theorem fits_iff (tag : Request.AtomTag) (s : State β) (data : List UInt8) (timeout : Nat) :
    Erlcmd.Fits (s.writeBody tag data timeout) ↔
      data.length + s.framer.overhead + tag.headerSize + Request.natSize timeout + 15 ≤ 32796 := by
  unfold Erlcmd.Fits State.writeBody
  rw [Request.length_encodeWrite, State.length_framed]
  unfold ERLCMD_BUF_SIZE
  omega

section

variable {body : List UInt8} (fits : Erlcmd.Fits body) {handler : Erlcmd}
  (sized : handler.Sized) (empty : handler.index = 0)

include fits sized empty

theorem between_request : Erlcmd.Between handler (Erlcmd.request body) [body] := by
  have all : ∀ b ∈ [body], Erlcmd.Fits b := by simpa using fits
  have between := Erlcmd.Between.of_empty sized empty all
  unfold Erlcmd.stream at between
  rwa [List.flatMap_singleton] at between

theorem request_accepted {log : List Erlcmd} {σ : Erlcmd.Stdin}
    (run : Reach Erlcmd.step anyStep ⟨handler, Erlcmd.request body⟩ log σ) {e : Erlcmd.Event}
    (possible : e.Possible σ) : (Erlcmd.step σ e).isSome = true := by
  obtain ⟨done, todo, -, -, between⟩ := (between_request fits sized empty).reach run
  obtain ⟨_, _, σ', called, -, took, -⟩ := between.step possible
  rw [took]
  rfl

theorem request_dispatched {log : List Erlcmd} {σ : Erlcmd.Stdin}
    (run : Reach Erlcmd.step anyStep ⟨handler, Erlcmd.request body⟩ log σ)
    (drained : σ.unread = []) :
    ∃ called, log = [called] ∧ called.buffer.take (body.length + 2) = Erlcmd.request body := by
  obtain ⟨done, todo, split, hcalled, between⟩ := (between_request fits sized empty).reach run
  rw [drained] at between
  obtain ⟨rfl, -⟩ := between.finished
  rw [List.append_nil] at split
  subst split
  cases hcalled with
  | cons first rest =>
    cases rest with
    | nil => exact ⟨_, rfl, first.2⟩

end

omit [Octet β] in
/-- A write that is in front of the buffer is handled. -/
theorem handled_of_buffer {tag : Request.AtomTag} {data buffer : List UInt8} {timeout : Nat}
    (fits : Erlcmd.Fits (Request.encodeWrite tag data timeout)) (data_fits : data.length < 2 ^ 32)
    (timeout_fits : timeout < 2 ^ 32)
    (front : buffer.take ((Request.encodeWrite tag data timeout).length + 2) =
      Erlcmd.request (Request.encodeWrite tag data timeout)) (os : Os β) (p : Program β) :
    Encoded.handleElixirRequest os buffer p =
      some (p.handleElixirRequest os (.write data timeout)) := by
  have whole := List.take_append_drop ((Request.encodeWrite tag data timeout).length + 2) buffer
  obtain ⟨b, encoded, writes⟩ := Request.encodeWrite_writes tag data_fits timeout_fits
  have short := fits.1
  rw [encoded, List.length_cons] at short
  rw [← whole, front, encoded]
  exact Encoded.handleElixirRequest_written os _ writes (by omega) _ _ _ p

/-! ## A request that does not -/

/-- The length of a request that is too long is read, and the program exits. -/
theorem request_too_long {body : List UInt8} (short : body.length < 2 ^ 16)
    (long : ERLCMD_BUF_SIZE < body.length + 2) :
    (Erlcmd.Event.read 2).Possible ⟨{}, Erlcmd.request body⟩ ∧
      Erlcmd.step ⟨{}, Erlcmd.request body⟩ (.read 2) = none := by
  have possible : (Erlcmd.Event.read 2).Possible ⟨{}, Erlcmd.request body⟩ := by
    refine ⟨by decide, ?_, ?_⟩
    · rw [Erlcmd.length_request]
      omega
    · show 2 ≤ ERLCMD_BUF_SIZE - 0
      decide
  refine ⟨possible, ?_⟩
  -- the two bytes of the length are all that is looked at
  let b₀ := UInt8.ofNat (body.length / 256)
  let b₁ := UInt8.ofNat body.length
  have header : Erlcmd.msglen (({} : Erlcmd).receive [b₀, b₁]).buffer = body.length := by
    show 256 * (UInt8.ofNat (body.length / 256)).toNat + (UInt8.ofNat body.length).toNat = _
    rw [UInt8.toNat_ofNat', UInt8.toNat_ofNat']
    omega
  have exits : (({} : Erlcmd).receive [b₀, b₁]).tryDispatch = .error (.errx
      s!"Message too long: {body.length + 2} bytes. Max is {ERLCMD_BUF_SIZE} bytes") := by
    unfold Erlcmd.tryDispatch
    rw [header, if_neg (by show ¬ 0 + 2 < 2; decide), if_pos long]
  have stops : ({} : Erlcmd).process (.ok ((Erlcmd.request body).take 2)) = .error (.errx
      s!"Message too long: {body.length + 2} bytes. Max is {ERLCMD_BUF_SIZE} bytes") := by
    show (do
      let r ← Erlcmd.dispatchLoop 3 (({} : Erlcmd).receive [b₀, b₁])
      return Erlcmd.Processed.continue r.1 r.2 : Except Stop Erlcmd.Processed) = _
    unfold Erlcmd.dispatchLoop
    rw [exits]
    rfl
  unfold Erlcmd.step
  rw [if_pos possible]
  dsimp only
  rw [stops]

theorem WriteAnswered.fits {tag : Request.AtomTag} {s : State β} {data : List UInt8}
    {timeout : Nat} (answered : WriteAnswered tag s data timeout) :
    Erlcmd.Fits (s.writeBody tag data timeout) := by
  refine ⟨answered.length, ?_⟩
  -- a handler that has just started exits on the length of a request that is too long
  by_contra long
  obtain ⟨possible, exits⟩ := request_too_long answered.length (Nat.lt_of_not_le long)
  have goes_on := answered.accepted {} ⟨List.length_replicate, Nat.zero_le _⟩ rfl [] _ .start
    (.read 2) possible
  rw [exits] at goes_on
  exact absurd goes_on (by simp)

/-! ## The port's answer -/

theorem returns_of_ok {α : Type} {Q R : α → Prop} {x : Except Stop α}
    (ends : Program.Returns R x) (h : ∀ a, x = .ok a → Q a) : Program.Returns Q x := by
  cases x with
  | ok a => exact h a rfl
  | error stop =>
    cases stop with
    | blocked => trivial
    | errx message => exact ends

omit [Octet β] in
/-- A write that is under way is answered, or waits for a device that is busy. -/
theorem attending_of_reach {p q r : Program β} {os : Os β} {data : List UInt8} {timeout : Int}
    {later : List Writing.Attempt} (isOpen : p.uart.fd.isSome = true) (idle : p.pending = false)
    (fits : timeout < 2 ^ 31) (begun : p.uartWrite os data timeout = .ok q)
    (run : Reach Writing.step anyStep q later r) :
    Attending p data timeout os.writeClock later r := by
  -- `Stands` is the invariant: what is written is a part of the data, and no answer is sent yet
  have stands : Writing.Stands p data timeout os.writeClock (Writing.attempts os data p)
      later r := by
    apply run.invariant (I := fun later r =>
      Writing.Stands p data timeout os.writeClock (Writing.attempts os data p) later r)
    · exact .begun begun
    · intro _ _ _ _ _ stands _ took
      exact stands.step fits took
  cases stands with
  | pending uart out sent rest unbroken inTime =>
    have writing : r.uart.writeData = some data := by rw [uart]
    refine .waiting writing out inTime fun os' => ?_
    have idle := Program.pending_eq_false.mp idle
    have sound : Program.Sound r := by
      refine ⟨fun _ => ?_, fun _ => ?_, fun reads => ?_⟩
      · rw [uart]
        exact idle.2
      · rw [uart]
        exact isOpen
      · rw [uart] at reads
        exact absurd reads (by simp [idle.2])
    exact (Program.continueInProgressWrite_kept sound writing os').mono fun _ _ => trivial
  | done gone sent out verdict =>
    obtain ⟨rest, out, others⟩ := out
    exact .answered _ gone out others

theorem toInt_lt (v : Int) : toInt v < 2 ^ 31 := by
  have := BitVec.toInt_lt (x := BitVec.ofInt 32 v)
  simpa [toInt] using this

omit [Octet β] in
theorem attended_of_open {p : Program β} (isOpen : p.uart.fd.isSome = true)
    (idle : p.pending = false) (os : Os β) (data : List UInt8) {timeout : Nat}
    (fits : timeout < 2 ^ 32) :
    Program.Returns (fun q => ∀ later r, Reach Writing.step anyStep q later r →
      Attending p data (toInt timeout) os.writeClock later r)
      (p.handleElixirRequest os (.write data timeout)) := by
  have fits_long : timeout ≤ LONG_MAX := by
    unfold LONG_MAX
    omega
  have decoded := Program.decodeTimeout_eq fits_long
  rw [Program.handleElixirRequest, Program.handleWrite]
  unfold Program.whenOpen Program.uartIsOpen
  rw [if_pos isOpen, decoded]
  apply returns_of_ok (Program.uartWrite_answered idle isOpen os data (toInt timeout))
  intro q begun later r run
  exact attending_of_reach isOpen idle (toInt_lt _) begun run

/-! ## Every write -/

/-- **A write is answered exactly if its request fits the port program's buffer.** A timeout is
accepted if what `genserver_timeout` makes of it is one that a `receive` takes. -/
theorem write_answered_iff (tag : Request.AtomTag) (s : State β) (data : List UInt8)
    {timeout : Nat} (accepted : timeout + 500 < 2 ^ 32) :
    WriteAnswered tag s data timeout ↔
      data.length + s.framer.overhead + tag.headerSize + Request.natSize timeout + 15 ≤ 32796 := by
  rw [← fits_iff]
  constructor
  · intro answered
    exact answered.fits
  · intro fits
    have timeout_fits : timeout < 2 ^ 32 := by omega
    have data_fits : (s.framed data).length < 2 ^ 32 := by
      have room := (fits_iff tag s data timeout).mp fits
      rw [State.length_framed]
      omega
    refine ⟨fits.1, ?_, ?_, ?_, ?_⟩
    · intro handler sized empty log σ run e possible
      exact request_accepted fits sized empty run possible
    · intro handler sized empty log σ run drained
      obtain ⟨called, one, front⟩ := request_dispatched fits sized empty run drained
      exact ⟨called, one, handled_of_buffer fits data_fits timeout_fits front⟩
    · intro p isOpen idle os
      exact attended_of_open isOpen idle os _ timeout_fits
    · intro timers fromPid clock
      exact ⟨_, rfl, rfl, fun _ _ _ _ _ => rfl⟩

/-- 32768 bytes in a line are written with the default timeout. -/
theorem write_answered_line :
    let s : State UInt8 := { framer := .line (Line.init {}) }
    5000 + 500 < 2 ^ 32 ∧ WriteAnswered .latin1 s (List.replicate 32768 0) 5000 := by
  intro s
  refine ⟨by decide, (write_answered_iff .latin1 s _ (by decide)).mpr ?_⟩
  rw [List.length_replicate]
  decide

/-- With 32775 bytes and the default timeout the request is a byte too long: the port program
reads its length and exits. -/
theorem write_exits :
    let s : State UInt8 := {}
    let data := List.replicate 32775 0
    Erlcmd.step ⟨{}, Erlcmd.request (s.writeBody .smallUtf8 data 5000)⟩ (.read 2) = none ∧
      ¬ WriteAnswered .smallUtf8 s data 5000 := by
  intro s data
  have length : (s.writeBody .smallUtf8 data 5000).length = 32797 := by
    unfold State.writeBody
    rw [Request.length_encodeWrite, State.length_framed, List.length_replicate]
    rfl
  refine ⟨(request_too_long (by omega) (by rw [length]; decide)).2, fun answered => ?_⟩
  have room := answered.fits.2
  rw [length] at room
  exact absurd room (by decide)

end Server

end CircuitsUart
