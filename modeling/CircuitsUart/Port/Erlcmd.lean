import CircuitsUart.Lib.Packet
import CircuitsUart.Lib.Run
import CircuitsUart.Port.Uart

/-!
# Requests on standard input

`erlcmd.c`: the pipe from the GenServer is read into a fixed buffer, and every request that
is complete there is handed to the request handler, from the front; what is left is moved
down. A request is a 2-byte big-endian length and that many bytes.

The pipe may deliver its bytes in any pieces. `Between` is what holds whenever the next
`read` is issued: the buffer and the pipe together are the requests still to come, and the
first of them is not complete.

The buffer is all of its `ERLCMD_BUF_SIZE` bytes, with `index` into it, because the handler is
given a pointer to the front and no length: it sees the request and whatever is behind it.
`Lib.Packet` is the reason why that does no harm. A request that is longer than the buffer ends
the program in the source, and `Fits` says which ones are not.
-/

set_option autoImplicit false

namespace CircuitsUart

open Lib Port

/-! ## The code -/

/-- `ERLCMD_BUF_SIZE`. -/
def ERLCMD_BUF_SIZE : Nat := 32768 + 30

/-- `struct erlcmd`, as `erlcmd_init` leaves it. -/
structure Erlcmd where
  buffer : List UInt8 := List.replicate ERLCMD_BUF_SIZE 0
  index : Nat := 0

namespace Erlcmd

/-- `FROM_BIGENDIAN16` of the first two bytes. -/
def msglen : List UInt8 → Nat
  | b₀ :: b₁ :: _ => 256 * b₀.toNat + b₁.toNat
  | _ => 0

/-- `memcpy` and `memmove` into the buffer. -/
def store (buffer : List UInt8) (offset : Nat) (bytes : List UInt8) : List UInt8 :=
  buffer.take offset ++ bytes ++ buffer.drop (offset + bytes.length)

/-- `erlcmd_try_dispatch`: the bytes processed, and the buffer the handler was called on. -/
def tryDispatch (handler : Erlcmd) : Except Stop (Nat × List Erlcmd) :=
  if handler.index < 2 then .ok (0, [])
  else if msglen handler.buffer + 2 > ERLCMD_BUF_SIZE then 
    .error (.errx s!"Message too long: {msglen handler.buffer + 2} bytes. Max is {ERLCMD_BUF_SIZE} bytes")
  else if msglen handler.buffer + 2 > handler.index then .ok (0, [])
  else .ok (msglen handler.buffer + 2, [handler])

/-- The loop of `erlcmd_process`, for so many turns at most. -/
def dispatchLoop : Nat → Erlcmd → Except Stop (Erlcmd × List Erlcmd)
  | 0, _ => .error .blocked
  | turns + 1, handler => do
    let (bytesProcessed, called) ← handler.tryDispatch
    if bytesProcessed = 0 then return (handler, called)
    else if handler.index > bytesProcessed then
      let left := handler.index - bytesProcessed
      let handler := { handler with
        buffer := store handler.buffer 0 ((handler.buffer.drop bytesProcessed).take left)
        index := left }
      let (handler, rest) ← dispatchLoop turns handler
      return (handler, called ++ rest)
    else return ({ handler with index := 0 }, called)

/-- The space offered to `read`. -/
def space (handler : Erlcmd) : Nat := ERLCMD_BUF_SIZE - handler.index

/-- After `handler->index += amount_read`. -/
def receive (handler : Erlcmd) (bytes : List UInt8) : Erlcmd where
  buffer := store handler.buffer handler.index bytes
  index := handler.index + bytes.length

/-- What `erlcmd_process` does: it returns 0, after some calls of the handler, or 1. -/
inductive Processed
  | continue (handler : Erlcmd) (called : List Erlcmd)
  | exit

/-- `erlcmd_process`, given what `read` finds. It reads no more than there is space for, and
nothing is the end of the file. -/
def process (handler : Erlcmd) (amountRead : Except Errno (List UInt8)) : Except Stop Processed :=
  match amountRead with
  | .error .eintr => .ok (.continue handler [])
  | .error _ => .error (.errx "read")
  | .ok bytes =>
    match bytes.take handler.space with
    | [] => .ok .exit
    | b :: bs => do
      let handler := handler.receive (b :: bs)
      let (handler, called) ← dispatchLoop (handler.index + 1) handler
      return .continue handler called

/-! ## The pipe -/

/-- The program's end of the pipe, and what the pipe still holds. -/
structure Stdin where
  handler : Erlcmd := {}
  unread : List UInt8

/-- One `read`: a number of bytes, or a signal. -/
inductive Event
  | read (amount : Nat)
  | eintr
  deriving DecidableEq

/-- What `read` may return: at least one byte, of those the pipe holds, into the space. -/
def Event.Possible (σ : Stdin) : Event → Prop
  | .read amount => 0 < amount ∧ amount ≤ σ.unread.length ∧ amount ≤ σ.handler.space
  | .eintr => True

instance (σ : Stdin) : DecidablePred (Event.Possible σ)
  | .read amount =>
    inferInstanceAs (Decidable (0 < amount ∧ amount ≤ σ.unread.length ∧ amount ≤ σ.handler.space))
  | .eintr => inferInstanceAs (Decidable True)

/-- One call of `erlcmd_process`; a label is the buffer a call of the handler finds. -/
def step (σ : Stdin) (e : Event) : Option (Stdin × List Erlcmd) :=
  if e.Possible σ then
    match e with
    | .eintr =>
      match σ.handler.process (.error .eintr) with
      | .ok (.continue handler called) => some ({ σ with handler := handler }, called)
      | _ => none
    | .read amount =>
      match σ.handler.process (.ok (σ.unread.take amount)) with
      | .ok (.continue handler called) => some (⟨handler, σ.unread.drop amount⟩, called)
      | _ => none
  else none

/-! ## Requests -/

/-- The packets of the pipe. -/
def packet : Packet UInt8 := ⟨2, fun header => msglen header + 2⟩

/-- A request: its body behind the body's length. -/
def request (body : List UInt8) : List UInt8 :=
  UInt8.ofNat (body.length / 256) :: UInt8.ofNat body.length :: body

/-- The length can be written in two bytes, and the request fits the buffer. -/
def Fits (body : List UInt8) : Prop := body.length < 2 ^ 16 ∧ body.length + 2 ≤ ERLCMD_BUF_SIZE

instance (body : List UInt8) : Decidable (Fits body) := inferInstanceAs (Decidable (_ ∧ _))

@[simp] theorem length_request (body : List UInt8) : (request body).length = body.length + 2 := rfl

theorem request_whole {body : List UInt8} (fits : Fits body) : packet.Whole (request body) := by
  have high : (UInt8.ofNat (body.length / 256)).toNat = body.length / 256 := by
    rw [UInt8.toNat_ofNat']
    apply Nat.mod_eq_of_lt
    have := fits.1
    omega
  have low : (UInt8.ofNat body.length).toNat = body.length % 256 := UInt8.toNat_ofNat'
  refine ⟨by rw [length_request]; exact Nat.le_add_left 2 _, ?_⟩
  show 256 * (UInt8.ofNat (body.length / 256)).toNat + (UInt8.ofNat body.length).toNat + 2 = _
  rw [high, low, length_request]
  omega

/-- The bytes of requests, one behind the other. -/
def stream (bodies : List (List UInt8)) : List UInt8 := bodies.flatMap request

/-! ## The buffer -/

/-- The bytes received and not yet dispatched. -/
def held (handler : Erlcmd) : List UInt8 := handler.buffer.take handler.index

/-- `index` is a position in the buffer. -/
structure Sized (handler : Erlcmd) : Prop where
  length : handler.buffer.length = ERLCMD_BUF_SIZE
  index_le : handler.index ≤ ERLCMD_BUF_SIZE

theorem Sized.length_held {handler : Erlcmd} (sized : Sized handler) :
    handler.held.length = handler.index := by
  rw [held, List.length_take, sized.length]
  exact Nat.min_eq_left sized.index_le

theorem length_store {buffer bytes : List UInt8} {offset : Nat}
    (fits : offset + bytes.length ≤ buffer.length) :
    (store buffer offset bytes).length = buffer.length := by
  simp only [store, List.length_append, List.length_take, List.length_drop]
  omega

theorem take_store {buffer bytes : List UInt8} {offset : Nat}
    (fits : offset + bytes.length ≤ buffer.length) :
    (store buffer offset bytes).take (offset + bytes.length) = buffer.take offset ++ bytes := by
  have len : (buffer.take offset ++ bytes).length = offset + bytes.length := by
    rw [List.length_append, List.length_take_of_le (by omega)]
  rw [store, ← len, List.take_left]

/-- What `read` puts into the buffer is behind what was there. -/
theorem Sized.receive {handler : Erlcmd} (sized : Sized handler) {bytes : List UInt8}
    (room : bytes.length ≤ handler.space) :
    Sized (handler.receive bytes) ∧ (handler.receive bytes).held = handler.held ++ bytes := by
  have fits : handler.index + bytes.length ≤ handler.buffer.length := by
    have := sized.index_le
    rw [sized.length]
    unfold space at room
    omega
  refine ⟨⟨(length_store fits).trans sized.length, ?_⟩, take_store fits⟩
  rw [← sized.length]
  exact fits

/-- `memmove`: the rest of the buffer is at its beginning. -/
theorem Sized.shift {handler : Erlcmd} (sized : Sized handler) (n : Nat) :
    let left := handler.index - n
    let handler' : Erlcmd :=
      { buffer := store handler.buffer 0 ((handler.buffer.drop n).take left), index := left }
    Sized handler' ∧ handler'.held = handler.held.drop n := by
  intro left handler'
  have index_le := sized.index_le
  have moved : ((handler.buffer.drop n).take left).length = left := by
    rw [List.length_take_of_le]
    rw [List.length_drop, sized.length]
    exact Nat.sub_le_sub_right index_le n
  have fits : 0 + ((handler.buffer.drop n).take left).length ≤ handler.buffer.length := by
    rw [moved, sized.length, Nat.zero_add]
    exact (Nat.sub_le _ _).trans index_le
  refine ⟨⟨(length_store fits).trans sized.length, (Nat.sub_le _ _).trans index_le⟩, ?_⟩
  have taken := take_store fits
  rw [moved, Nat.zero_add, List.take_zero, List.nil_append] at taken
  rw [show handler'.held = _ from taken, held, List.drop_take]

/-! ## The loop -/

theorem msglen_take {bytes : List UInt8} {n : Nat} (two : 2 ≤ n) :
    msglen (bytes.take n) = msglen bytes := by
  obtain ⟨n, rfl⟩ := Nat.exists_eq_add_of_le' two
  rcases bytes with _ | ⟨b₀, _ | ⟨b₁, bytes⟩⟩ <;> rfl

/-- **`erlcmd_try_dispatch`** calls the handler exactly when the next request is complete. -/
theorem Sized.tryDispatch {handler : Erlcmd} (sized : Sized handler) {body unread rest : List UInt8}
    (fits : Fits body) (next : handler.held ++ unread = request body ++ rest) :
    handler.tryDispatch =
      .ok (if body.length + 2 ≤ handler.index then (body.length + 2, [handler])
        else (0, [])) := by
  unfold Erlcmd.tryDispatch
  by_cases short : handler.index < 2
  · rw [if_pos short, if_neg (by omega)]
  · have header : handler.held.take 2 = (request body).take 2 := by
      apply Packet.take_header (request_whole fits) next
      rw [sized.length_held]
      exact Nat.le_of_not_lt short
    have len : msglen handler.buffer + 2 = body.length + 2 := by
      have size := (request_whole fits).2
      rw [← show handler.held.take 2 = (request body).take packet.header from header] at size
      change msglen (handler.held.take 2) + 2 = _ at size
      rwa [msglen_take (Nat.le_refl 2), held, msglen_take (by omega), length_request] at size
    have room := fits.2
    rw [len, if_neg short, if_neg (by omega)]
    by_cases complete : body.length + 2 ≤ handler.index
    · rw [if_neg (by omega), if_pos complete]
    · rw [if_pos (by omega), if_neg complete]

/-- What holds when a `read` is issued: the buffer and the pipe are the requests to come, and
the first of them is not complete. -/
structure Between (handler : Erlcmd) (unread : List UInt8) (todo : List (List UInt8)) : Prop where
  sized : Sized handler
  fits : ∀ body ∈ todo, Fits body
  stream : handler.held ++ unread = stream todo
  incomplete : ∀ body ∈ todo.head?, handler.index < body.length + 2

/-- The handler was called once for each request, with the request at the start of the buffer. -/
def Called (called : List Erlcmd) (bodies : List (List UInt8)) : Prop :=
  List.Forall₂ (fun handler body => Sized handler ∧
    handler.buffer.take (body.length + 2) = request body) called bodies

/-- **The loop ends, and dispatches the requests that are complete.** -/
theorem dispatchLoop_eq {turns : Nat} {handler : Erlcmd} {unread : List UInt8}
    {todo : List (List UInt8)} (enough : handler.index < turns) (sized : Sized handler)
    (fits : ∀ body ∈ todo, Fits body) (stream_eq : handler.held ++ unread = stream todo) :
    ∃ done todo' handler' called, todo = done ++ todo' ∧
      dispatchLoop turns handler = .ok (handler', called) ∧ Called called done ∧
      Between handler' unread todo' := by
  induction turns generalizing handler todo with
  | zero => exact absurd enough (Nat.not_lt_zero _)
  | succ turns ih =>
    cases todo with
    | nil =>
      have empty : handler.index = 0 := by
        have := congrArg List.length stream_eq
        rw [List.length_append, sized.length_held] at this
        simp [stream] at this
        exact this.1
      refine ⟨[], [], handler, [], rfl, ?_, .nil, sized, fits, stream_eq, by simp⟩
      rw [dispatchLoop, Erlcmd.tryDispatch, if_pos (by omega)]
      rfl
    | cons body todo =>
      have next : handler.held ++ unread = request body ++ stream todo := stream_eq
      have dispatched := sized.tryDispatch (fits body (by simp)) next
      by_cases complete : body.length + 2 ≤ handler.index
      · rw [if_pos complete] at dispatched
        have front := Packet.take_front (p := request body) next (by
          rw [length_request, sized.length_held]
          exact complete)
        rw [length_request] at front
        have atStart : Sized handler ∧
            handler.buffer.take (body.length + 2) = request body := by
          refine ⟨sized, ?_⟩
          have := front.1
          rwa [held, List.take_take, Nat.min_eq_left complete] at this
        by_cases more : body.length + 2 < handler.index
        · obtain ⟨sized', held'⟩ := sized.shift (body.length + 2)
          have rest := ih (by simp; omega) sized' (fun b hb => fits b (List.mem_cons_of_mem _ hb))
            (by rw [held']; exact front.2)
          obtain ⟨done, todo', handler', called, rfl, looped, hcalled, between⟩ := rest
          refine ⟨body :: done, todo', handler', handler :: called, rfl, ?_,
            .cons atStart hcalled, between⟩
          rw [dispatchLoop, dispatched]
          simp only [bind, Except.bind, pure, Except.pure, Nat.add_eq_zero_iff,
            OfNat.ofNat_ne_zero, and_false, if_false, gt_iff_lt, if_pos more]
          rw [looped]
          rfl
        · -- the request ends where the buffer does
          have whole : body.length + 2 = handler.index := by omega
          refine ⟨[body], todo, { handler with index := 0 }, [handler], rfl, ?_,
            .cons atStart .nil, ⟨sized.length, Nat.zero_le _⟩, fun b hb => fits b (List.mem_cons_of_mem _ hb),
            ?_, fun b _ => Nat.succ_pos _⟩
          · rw [dispatchLoop, dispatched]
            simp only [bind, Except.bind, pure, Except.pure, Nat.add_eq_zero_iff,
              OfNat.ofNat_ne_zero, and_false, if_false, gt_iff_lt, if_neg more]
          · have := front.2
            rw [List.drop_eq_nil_of_le (by rw [sized.length_held]; omega)] at this
            rw [held, List.take_zero]
            exact this
      · rw [if_neg complete] at dispatched
        refine ⟨[], body :: todo, handler, [], rfl, ?_, .nil, sized, fits, stream_eq, ?_⟩
        · rw [dispatchLoop, dispatched]
          rfl
        · intro b hb
          obtain rfl := Option.some.inj hb
          omega

/-! ## Every run -/

theorem Between.index_lt {handler : Erlcmd} {unread : List UInt8} {todo : List (List UInt8)}
    (between : Between handler unread todo) : handler.index < ERLCMD_BUF_SIZE := by
  cases todo with
  | nil =>
    have empty := congrArg List.length between.stream
    rw [List.length_append, between.sized.length_held] at empty
    have : handler.index = 0 := by
      simp [Erlcmd.stream] at empty
      exact empty.1
    rw [this]
    decide
  | cons body todo =>
    exact (between.incomplete body rfl).trans_le (between.fits body (by simp)).2

/-- With nothing left in the pipe every request has been dispatched. -/
theorem Between.finished {handler : Erlcmd} {todo : List (List UInt8)}
    (between : Between handler [] todo) : todo = [] ∧ handler.index = 0 := by
  have len := congrArg List.length between.stream
  rw [List.append_nil, between.sized.length_held] at len
  cases todo with
  | nil => exact ⟨rfl, len⟩
  | cons body todo =>
    have short := between.incomplete body rfl
    rw [Erlcmd.stream, List.flatMap_cons, List.length_append, length_request] at len
    omega

/-- **One call of `erlcmd_process`** returns, and dispatches the requests that have become
complete. -/
theorem Between.step {σ : Stdin} {todo : List (List UInt8)}
    (between : Between σ.handler σ.unread todo) {e : Event} (possible : e.Possible σ) :
    ∃ done todo' σ' called, todo = done ++ todo' ∧ Erlcmd.step σ e = some (σ', called) ∧
      Called called done ∧ Between σ'.handler σ'.unread todo' := by
  cases e with
  | eintr =>
    refine ⟨[], todo, σ, [], rfl, ?_, .nil, between⟩
    rw [Erlcmd.step, if_pos possible]
    rfl
  | read amount =>
    obtain ⟨some_bytes, there, room⟩ := possible
    have len : (σ.unread.take amount).length = amount := List.length_take_of_le there
    have offered : (σ.unread.take amount).take σ.handler.space = σ.unread.take amount := by
      apply List.take_of_length_le
      rwa [len]
    obtain ⟨sized, held⟩ := between.sized.receive (len.trans_le room)
    have whole : (σ.handler.receive (σ.unread.take amount)).held ++ σ.unread.drop amount =
        Erlcmd.stream todo := by
      rw [held, List.append_assoc, List.take_append_drop]
      exact between.stream
    obtain ⟨done, todo', handler', called, split, looped, hcalled, between'⟩ :=
      dispatchLoop_eq (Nat.lt_succ_self _) sized between.fits whole
    have processed : σ.handler.process (.ok (σ.unread.take amount)) =
        .ok (.continue handler' called) := by
      unfold process
      dsimp only
      rw [offered]
      cases hbytes : σ.unread.take amount with
      | nil =>
        rw [hbytes] at len
        exact absurd len some_bytes.ne
      | cons b bs =>
        rw [hbytes] at looped
        simp only [looped, bind, Except.bind, pure, Except.pure]
    refine ⟨done, todo', ⟨handler', σ.unread.drop amount⟩, called, split, ?_, hcalled, between'⟩
    unfold Erlcmd.step
    rw [if_pos ⟨some_bytes, there, room⟩]
    dsimp only
    rw [processed]

/-- **A run of `erlcmd_process`** dispatches the first of the requests that were to come. -/
theorem Between.reach {σ₀ σ : Stdin} {bodies : List (List UInt8)}
    (between : Between σ₀.handler σ₀.unread bodies) {log : List Erlcmd}
    (run : Reach Erlcmd.step anyStep σ₀ log σ) :
    ∃ done todo, bodies = done ++ todo ∧ Called log done ∧ Between σ.handler σ.unread todo := by
  apply run.invariant (I := fun log σ => ∃ done todo, bodies = done ++ todo ∧ Called log done ∧
    Between σ.handler σ.unread todo)
  · exact ⟨[], bodies, rfl, .nil, between⟩
  · intro h s e s' out inv _ took
    obtain ⟨done, todo, rfl, hcalled, between⟩ := inv
    have possible : e.Possible s := by
      by_contra impossible
      unfold Erlcmd.step at took
      rw [if_neg impossible] at took
      exact absurd took (by simp)
    obtain ⟨done', todo', σ', called, rfl, took', hcalled', between'⟩ := between.step possible
    obtain ⟨rfl, rfl⟩ := Prod.mk.inj (Option.some.inj (took.symm.trans took'))
    exact ⟨done ++ done', todo', (List.append_assoc ..).symm, List.rel_append hcalled hcalled',
      between'⟩

/-- The buffer is empty, and the requests that are to come are in the pipe. -/
theorem Between.of_empty {handler : Erlcmd} (sized : Sized handler) (empty : handler.index = 0)
    {bodies : List (List UInt8)} (fits : ∀ body ∈ bodies, Fits body) :
    Between handler (Erlcmd.stream bodies) bodies where
  sized := sized
  fits := fits
  stream := by rw [held, empty, List.take_zero, List.nil_append]
  incomplete body _ := by rw [empty]; exact Nat.succ_pos _

/-- **Requests are put together again, whatever the pieces.** Write requests into the pipe, and
let every `read` return as many bytes as it likes, of those there are and there is space for,
or be interrupted. In every state reached:

* the handler has been called once for each of the first requests, in order, with the request
  at the start of the buffer;
* what is in the buffer and in the pipe is the other requests, the first of which is not
  complete; with nothing left in the pipe there is none;
* `index` is less than the size of the buffer, so that the next `read` is offered some space,
  and does not exceed it whatever that `read` returns;
* the next call of `erlcmd_process` returns. -/
theorem dispatches_each {bodies : List (List UInt8)} (fits : ∀ body ∈ bodies, Fits body)
    {log : List Erlcmd} {σ : Stdin} (run : Reach step anyStep ⟨{}, stream bodies⟩ log σ) :
    ∃ done todo, bodies = done ++ todo ∧ Called log done ∧
      σ.handler.held ++ σ.unread = stream todo ∧
      (∀ body ∈ todo.head?, σ.handler.index < body.length + 2) ∧
      (σ.unread = [] → todo = [] ∧ σ.handler.index = 0) ∧
      σ.handler.index < ERLCMD_BUF_SIZE ∧
      (∀ bytes : List UInt8, bytes.length ≤ σ.handler.space →
        (σ.handler.receive bytes).index ≤ ERLCMD_BUF_SIZE) ∧
      ∀ e : Event, e.Possible σ → (step σ e).isSome = true := by
  have start : Between ({} : Erlcmd) (Erlcmd.stream bodies) bodies :=
    .of_empty ⟨List.length_replicate, Nat.zero_le _⟩ rfl fits
  have between := start.reach run
  obtain ⟨done, todo, split, hcalled, between⟩ := between
  refine ⟨done, todo, split, hcalled, between.stream, between.incomplete, fun drained => ?_,
    between.index_lt, fun bytes room => (between.sized.receive room).1.index_le, fun e possible => ?_⟩
  · rw [drained] at between
    exact between.finished
  · obtain ⟨-, -, σ', called, -, took, -⟩ := between.step possible
    rw [took]
    rfl

/-- Two requests, the first with no body, read in pieces that cut both lengths. -/
theorem dispatches_each_cutLengths :
    ∃ log σ, exec step ⟨{}, stream [[], [7, 8]]⟩ [.read 1, .eintr, .read 2, .read 3] =
        some (σ, log) ∧
      Called log [[], [7, 8]] ∧ σ.handler.index = 0 := by
  cases ran : exec step ⟨{}, stream [[], [7, 8]]⟩ [.read 1, .eintr, .read 2, .read 3] with
  | none => exact absurd ran (by decide)
  | some r =>
    have fits : ∀ body ∈ [[], [7, 8]], Fits body := by decide
    obtain ⟨done, todo, split, hcalled, -, -, drained, -⟩ :=
      dispatches_each fits (Reach.of_exec ran)
    have read : (exec step ⟨{}, stream [[], [7, 8]]⟩ [.read 1, .eintr, .read 2, .read 3]).map
        (fun r => r.1.unread) = some [] := by decide
    rw [ran] at read
    obtain ⟨rfl, index⟩ := drained (Option.some.inj read)
    rw [List.append_nil] at split
    exact ⟨r.2, r.1, rfl, split ▸ hcalled, index⟩

end Erlcmd

end CircuitsUart
