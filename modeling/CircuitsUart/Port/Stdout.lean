import CircuitsUart.Port.Answers
import CircuitsUart.Port.Erlcmd
import CircuitsUart.Port.Sent

/-!
# Standard output

`erlcmd_send` writes a message behind its length, with as many calls of `write` as that takes,
or it does not return. At the other end the port puts the messages together from the bytes that
have come, so what it delivers is the first of the messages sent, whole and in order, and all of
them once every `erlcmd_send` has returned.

The length has two bytes and is that of the message modulo `2 ^ 16`, so a message that is too long
would put the port out of step for good. `handle_sendable` says that the program has none to send;
it rests on the size of the read buffer, and is the reason for `Os.Bounded`.

Delivering is a function of the bytes that have come. A message of which some bytes are missing is
not delivered, and a program that ends in the middle of one has delivered those before.
-/

set_option autoImplicit false

namespace CircuitsUart

open Lib Port

namespace Erlcmd

/-! ## Writing -/

/-- The loop of `erlcmd_send`, given what its calls of `write` return: what it writes, and how it
ends. -/
def sendLoop : List (Except Errno Nat) → List UInt8 → List UInt8 × Except Stop Unit
  | [], _ => ([], .error .blocked)
  | .error errno :: rest, left =>
    if errno = .eintr then sendLoop rest left else ([], .error (.errx "write"))
  | .ok amountWritten :: rest, left =>
    if amountWritten < left.length then
      let r := sendLoop rest (left.drop amountWritten)
      (left.take amountWritten ++ r.1, r.2)
    else (left, .ok ())

/-- `erlcmd_send`. The length is that of the message, modulo 2^16. -/
def send (writes : List (Except Errno Nat)) (message : List UInt8) :
    List UInt8 × Except Stop Unit := sendLoop writes (request message)

/-- Messages one after another, each with what its calls of `write` return. -/
def sendAll : List (List UInt8 × List (Except Errno Nat)) → List UInt8 × Except Stop Unit
  | [] => ([], .ok ())
  | (message, writes) :: rest =>
    let r := send writes message
    match r.2 with
    | .error stop => (r.1, .error stop)
    | .ok () =>
      let rest := sendAll rest
      (r.1 ++ rest.1, rest.2)

/-- **What is written is a beginning of the message**, and if the loop is left all of it. -/
theorem sendLoop_prefix (writes : List (Except Errno Nat)) (left : List UInt8) :
    (sendLoop writes left).1 <+: left ∧
      ((sendLoop writes left).2 = .ok () → (sendLoop writes left).1 = left) := by
  induction writes generalizing left with
  | nil => exact ⟨List.nil_prefix, fun returned => absurd returned (by simp [sendLoop])⟩
  | cons result rest ih =>
    cases result with
    | error errno =>
      rw [sendLoop]
      split
      · exact ih left
      · exact ⟨List.nil_prefix, fun returned => absurd returned (by simp)⟩
    | ok amountWritten =>
      rw [sendLoop]
      split
      · obtain ⟨⟨later, here⟩, whole⟩ := ih (left.drop amountWritten)
        refine ⟨⟨later, ?_⟩, fun returned => ?_⟩
        · rw [List.append_assoc, here, List.take_append_drop]
        · show left.take amountWritten ++ (sendLoop rest (left.drop amountWritten)).1 = left
          rw [whole returned, List.take_append_drop]
      · exact ⟨List.prefix_refl left, fun _ => rfl⟩

/-- The same of many messages. -/
theorem sendAll_prefix (messages : List (List UInt8 × List (Except Errno Nat))) :
    (sendAll messages).1 <+: stream (messages.map Prod.fst) ∧
      ((sendAll messages).2 = .ok () →
        (sendAll messages).1 = stream (messages.map Prod.fst)) := by
  induction messages with
  | nil => exact ⟨List.nil_prefix, fun _ => rfl⟩
  | cons m rest ih =>
    obtain ⟨message, writes⟩ := m
    obtain ⟨begun, whole⟩ := sendLoop_prefix writes (request message)
    rw [List.map_cons, stream, List.flatMap_cons]
    cases returned : (send writes message).2 with
    | error stop =>
      simp only [sendAll, returned]
      exact ⟨begun.trans (List.prefix_append _ _), fun h => absurd h (by simp)⟩
    | ok _ =>
      simp only [sendAll, returned]
      have all : (send writes message).1 = request message := whole returned
      rw [all]
      exact ⟨(List.prefix_append_right_inj _).mpr ih.1, fun h => by rw [ih.2 h]; rfl⟩

/-! ## Delivering -/

/-- The next message of the port: `{:packet, 2}`. -/
def nextMessage (bytes : List UInt8) : Option (List UInt8 × List UInt8) := Etf.readSized 2 bytes

/-- The messages in the bytes that have come, so many at most. -/
def messagesIn : Nat → List UInt8 → List (List UInt8)
  | 0, _ => []
  | n + 1, bytes =>
    match nextMessage bytes with
    | some (message, rest) => message :: messagesIn n rest
    | none => []

/-- What the port has delivered. -/
def delivered (bytes : List UInt8) : List (List UInt8) := messagesIn bytes.length bytes

theorem request_eq (message : List UInt8) :
    request message = Etf.bigEndian 2 message.length ++ message := by
  simp [request, Etf.bigEndian]

/-- A message that has come is delivered. -/
theorem nextMessage_request {message : List UInt8} (short : message.length < 256 ^ 2)
    (rest : List UInt8) : nextMessage (request message ++ rest) = some (message, rest) := by
  rw [nextMessage, request_eq]
  exact Etf.readSized_append short rest

/-- A message that has not come as a whole is not. -/
theorem nextMessage_part {message bytes rest : List UInt8} (short : message.length < 256 ^ 2)
    (part : bytes <+: request message ++ rest) (less : bytes.length < message.length + 2) :
    nextMessage bytes = none := by
  obtain ⟨later, split⟩ := part
  rcases bytes with _ | ⟨b₀, _ | ⟨b₁, bytes⟩⟩
  · rfl
  · rfl
  · rw [request_eq, List.append_assoc, List.cons_append, List.cons_append] at split
    have two : [b₀, b₁] = Etf.bigEndian 2 message.length :=
      (List.append_inj (show [b₀, b₁] ++ (bytes ++ later) = _ from split) (by simp)).1
    have length := Etf.word_bigEndian short bytes
    rw [← two] at length
    rw [nextMessage, Etf.readSized, show b₀ :: b₁ :: bytes = [b₀, b₁] ++ bytes from rfl, length,
      Option.bind_some, Etf.cut]
    simp only [List.length_cons] at less
    exact if_neg (show ¬ message.length ≤ bytes.length by omega)

/-- **The bytes that have come are the first messages**, and part of the next. -/
theorem messagesIn_prefix {messages : List (List UInt8)}
    (short : ∀ message ∈ messages, message.length < 256 ^ 2) {bytes : List UInt8}
    (come : bytes <+: stream messages) {n : Nat} (enough : bytes.length ≤ n) :
    ∃ rest, messages = messagesIn n bytes ++ rest ∧ stream (messagesIn n bytes) <+: bytes ∧
      (bytes = stream messages → rest = []) := by
  induction messages generalizing bytes n with
  | nil =>
    obtain rfl := List.prefix_nil.mp come
    have none_there : messagesIn n [] = [] := by cases n <;> rfl
    rw [none_there]
    exact ⟨[], rfl, List.nil_prefix, fun _ => rfl⟩
  | cons message messages ih =>
    have next : stream (message :: messages) = request message ++ stream messages := rfl
    have here := short message List.mem_cons_self
    by_cases whole : message.length + 2 ≤ bytes.length
    · obtain ⟨later, rfl⟩ : request message <+: bytes :=
        List.prefix_of_prefix_length_le (List.prefix_append _ _) (next ▸ come)
          (by simpa using whole)
      rw [List.length_append, length_request] at enough
      obtain ⟨n, rfl⟩ := Nat.exists_eq_add_of_le' (Nat.le_trans (Nat.le_add_left 1 _)
        (Nat.le_trans (Nat.le_add_right _ _) enough))
      have messagesIn_eq : messagesIn (n + 1) (request message ++ later) =
          message :: messagesIn n later := by
        rw [messagesIn, nextMessage_request here]
      rw [next] at come
      obtain ⟨rest, split, behind, all⟩ := ih
        (fun m hm => short m (List.mem_cons_of_mem _ hm))
        ((List.prefix_append_right_inj _).mp come) (show later.length ≤ n by omega)
      rw [messagesIn_eq]
      refine ⟨rest, by rw [List.cons_append, ← split], ?_, fun h => ?_⟩
      · exact (List.prefix_append_right_inj _).mpr behind
      · rw [next] at h
        exact all (List.append_cancel_left h)
    · have none_whole : messagesIn n bytes = [] := by
        cases n with
        | zero => rfl
        | succ n => rw [messagesIn, nextMessage_part here (next ▸ come) (by omega)]
      rw [none_whole]
      refine ⟨message :: messages, rfl, List.nil_prefix, fun h => absurd h fun h => whole ?_⟩
      rw [h, next, List.length_append, length_request]
      omega

end Erlcmd

namespace Program

/-! ## What a program sends -/

section

variable {β : Type}

/-- `read` returns no more than `sizeof(port->read_buffer)`. -/
def Os.Bounded (os : Os β) : Prop := ∀ bytes, .ok bytes ∈ os.reads → bytes.length ≤ 4096

/-- What the operating system answers while an event is handled. -/
def Event.os : Event β → Os β
  | .request os _ => os
  | .process os => os

theorem readBytes_or (os : Os β) (p : Program β) :
    p.readBytes os = [] ∨ .ok (p.readBytes os) ∈ os.reads := by
  unfold readBytes read
  split
  · next bytes q hread =>
    split at hread
    · exact absurd hread (by simp)
    · split at hread
      · exact absurd hread (by simp)
      · next result errno hretry =>
        obtain ⟨rfl, -⟩ := Prod.mk.inj (Except.ok.inj hread)
        exact .inr (retry_mem hretry)
  · exact .inl rfl

theorem length_input {p : Program β} {e : Event β} (bounded : Os.Bounded e.os) :
    (p.input e).length ≤ 4096 := by
  have read (q : Program β) : (q.readBytes e.os).length ≤ 4096 := by
    obtain nothing | found := readBytes_or e.os q
    · rw [nothing]
      exact Nat.zero_le _
    · exact bounded _ found
  cases e with
  | request os command =>
    cases command with
    | read timeout =>
      rw [input]
      split
      · exact read _
      · exact Nat.zero_le _
    | _ => exact Nat.zero_le _
  | process os =>
    rw [input]
    split
    · split
      · exact read _
      · exact Nat.zero_le _
    · exact Nat.zero_le _

/-- **Options are sent in answer to `:configuration` only**, and they are those of the current
configuration. -/
theorem handle_options {p q : Program β} {e : Event β} (h : p.handle e = .ok q)
    (last : ∀ os, e = .process os → ∃ command, Serving command p)
    (idle : ∀ os command, e = .request os command → p.pending = false) {opts : List Term}
    (sent : .response (.options opts) ∈ q.out) : opts = reported p.currentConfig := by
  cases e with
  | request os command =>
    have serving := handle_serves h (by simp) fun os' c heq => by
      obtain ⟨rfl, rfl⟩ := Event.request.inj heq
      exact ⟨rfl, idle _ _ rfl⟩
    have answers := serving.sent _ sent
    cases command with
    | configuration =>
      obtain rfl : handleConfiguration (p.enter os) = q := Except.ok.inj h
      obtain rfl := Response.options.inj (Out.response.inj (List.mem_singleton.mp sent))
      rfl
    | _ => exact absurd answers (by simp [Response.Answers])
  | process os =>
    -- what is pending is a write or a read; if nothing is, any command will do
    have serving : ∃ command : Command, ¬ (Response.options opts : Response β).Answers command ∧
        Serving command (p.enter os) := by
      obtain ⟨command, serving⟩ := last os rfl
      cases write : p.uart.writeData.isSome with
      | true =>
        obtain ⟨data, timeout, rfl⟩ := serving.write write
        exact ⟨_, id, serving.enter os⟩
      | false =>
        cases read : p.uart.readPending with
        | true =>
          obtain ⟨timeout, rfl⟩ := serving.read read
          exact ⟨_, id, serving.enter os⟩
        | false =>
          refine ⟨.close, id, .of_idle ?_ rfl⟩
          show (p.uart.writeData.isSome || p.uart.readPending) = false
          rw [write, read]
          rfl
    obtain ⟨command, never, serving⟩ := serving
    have served := serving.uartProcess os
    rw [show (p.enter os).uartProcess os = .ok q from h] at served
    exact absurd (served.sent _ sent) never

end

/-- Data that is sent has been read just now. -/
theorem length_bytes_le {p q : Program UInt8} {e : Event UInt8} (h : p.handle e = .ok q)
    (bounded : Os.Bounded e.os) {o : Out UInt8} (sent : o ∈ q.out) : o.bytes.length ≤ 4096 := by
  have all := length_input (p := p) bounded
  obtain ⟨before, after, split⟩ := List.append_of_mem sent
  rw [← handle_data h, data, split, List.flatMap_append, List.flatMap_cons, List.length_append,
    List.length_append] at all
  omega

/-- **All that a program sends can be sent.** -/
theorem handle_sendable {p q : Program UInt8} {e : Event UInt8} (h : p.handle e = .ok q)
    (ok : p.currentConfig.Ok) (last : ∀ os, e = .process os → ∃ command, Serving command p)
    (idle : ∀ os command, e = .request os command → p.pending = false)
    (bounded : Os.Bounded e.os) {o : Out UInt8} (sent : o ∈ q.out) : o.Sendable := by
  have short := length_bytes_le h bounded sent
  cases o with
  | response r =>
    cases r with
    | data bytes => exact short
    | options opts => exact ⟨p.currentConfig, ok, handle_options h last idle sent⟩
    | _ => trivial
  | notif n =>
    cases n with
    | data bytes => exact short
    | error reason => trivial

/-- What holds between two events. -/
structure Sending (h : List (Label UInt8)) (p : Program UInt8) : Prop where
  matched : Matched h p
  ok : p.currentConfig.Ok
  serving : ∃ command, Serving command p
  sendable : ∀ o, .sent o ∈ h → o.Sendable

/-- Requests come one at a time, and `read` returns no more than it is asked for. -/
def Orderly (h : List (Label UInt8)) (p : Program UInt8) (e : Event UInt8) : Prop :=
  OneAtATime h p e ∧ Os.Bounded e.os

theorem step_sending {h : List (Label UInt8)} {p p' : Program UInt8} {e : Event UInt8}
    {out : List (Label UInt8)} (s : Sending h p) (guard : Orderly h p e)
    (took : step p e = some (p', out)) : Sending (h ++ out) p' := by
  have matched := step_matched s.matched guard.1 took
  have idle : ∀ os command, e = .request os command → p.pending = false := by
    rintro os command rfl
    exact s.matched.idle guard.1
  have last : ∀ os, e = .process os → ∃ command, Serving command p := fun _ _ => s.serving
  obtain ⟨q, handled, rfl, rfl⟩ := step_eq_some took
  obtain ⟨command, serving⟩ : ∃ command, Serving command q := by
    cases e with
    | request os c =>
      exact ⟨c, handle_serves handled (by simp) fun _ _ heq =>
        ⟨(Event.request.inj heq).2.symm, idle _ _ rfl⟩⟩
    | process os =>
      obtain ⟨command, serving⟩ := s.serving
      exact ⟨command, handle_serves handled (fun _ _ => serving) (by simp)⟩
  refine ⟨matched, (handle_complete handled s.ok).1,
    ⟨command, serving.write, serving.read, by simp⟩, fun o sent => ?_⟩
  rcases List.mem_append.mp sent with earlier | now
  · exact s.sendable o earlier
  · rcases List.mem_append.mp now with label | mine
    · cases e <;> simp [Event.label] at label
    · obtain ⟨_, inside, same⟩ := List.mem_map.mp mine
      obtain rfl := Label.sent.inj same
      exact handle_sendable handled s.ok last idle guard.2 inside

theorem sending_of_reach {h : List (Label UInt8)} {p : Program UInt8}
    (r : Reach step Orderly {} h p) : Sending h p := by
  have keep : ∀ (h : List (Label UInt8)) p e p' out, Sending h p → Orderly h p e →
      step p e = some (p', out) → Sending (h ++ out) p' :=
    fun _ _ _ _ _ s guard took => step_sending s guard took
  have init : Sending [] {} :=
    ⟨⟨.of_idle rfl, rfl⟩, uartDefaultConfig_ok, ⟨.close, .of_idle rfl rfl⟩, by simp⟩
  exact Reach.invariant init keep r

/-- The messages sent. -/
def messages (h : List (Label UInt8)) : List (Out UInt8) :=
  h.filterMap fun
    | .sent o => some o
    | .dispatched _ => none

/-- **What a program sends arrives.** In every run in which requests come one at a time and `read`
returns no more than it is asked for, whatever `write` returns on standard output:

* every message has room in the buffer it is put together in;
* of the bytes that have come, the port delivers the first of the messages, whole and in order,
  and the GenServer takes each for what was sent;
* if every `erlcmd_send` returns and all the bytes have come, it delivers all of them. -/
theorem sent_delivered {h : List (Label UInt8)} {p : Program UInt8} (r : Reach step Orderly {} h p)
    (writes : List (List (Except Errno Nat))) (each : writes.length = (messages h).length)
    {all : List UInt8} {ended : Except Stop Unit}
    (wrote : Erlcmd.sendAll (((messages h).map Out.body).zip writes) = (all, ended)) :
    (∀ o ∈ messages h, o.body.length + 2 ≤ o.room) ∧
      ∀ bytes, bytes <+: all →
        (Erlcmd.delivered bytes).map Out.ofMessage <+: (messages h).map some ∧
          (bytes = all → ended = .ok () →
            (Erlcmd.delivered bytes).map Out.ofMessage = (messages h).map some) := by
  have sendable : ∀ o ∈ messages h, o.Sendable := fun o inside => by
    obtain ⟨l, there, same⟩ := List.mem_filterMap.mp inside
    cases l with
    | sent o' =>
      obtain rfl := Option.some.inj same
      exact (sending_of_reach r).sendable o' there
    | dispatched command => exact absurd same (by simp)
  have understood : ((messages h).map Out.body).map Out.ofMessage = (messages h).map some := by
    rw [List.map_map]
    exact List.map_congr_left fun o inside => o.ofMessage_body (sendable o inside)
  refine ⟨fun o inside => o.body_room (sendable o inside), fun bytes come => ?_⟩
  obtain ⟨begun, whole⟩ := Erlcmd.sendAll_prefix (((messages h).map Out.body).zip writes)
  rw [List.map_fst_zip (by rw [List.length_map, each]), wrote] at begun whole
  have short : ∀ message ∈ (messages h).map Out.body, message.length < 256 ^ 2 := by
    intro message inside
    obtain ⟨o, there, rfl⟩ := List.mem_map.mp inside
    exact o.body_short (sendable o there)
  obtain ⟨rest, split, -, complete⟩ :=
    Erlcmd.messagesIn_prefix short (come.trans begun) (Nat.le_refl bytes.length)
  have heads : (Erlcmd.delivered bytes).map Out.ofMessage ++ rest.map Out.ofMessage =
      (messages h).map some := by
    rw [← understood, split, List.map_append]
    rfl
  refine ⟨⟨_, heads⟩, fun arrived returned => ?_⟩
  rw [complete (arrived.trans (whole returned)), List.map_nil, List.append_nil] at heads
  exact heads

/-- A port is opened and read. The first answer is written in two pieces, with a signal in
between. -/
theorem sent_delivered_pieces :
    let sent := [.response .ok, .response (.data [65, 66])]
    (Erlcmd.delivered (Erlcmd.stream (sent.map Out.body))).map Out.ofMessage =
      sent.map some := by
  intro sent
  obtain ⟨h, p, r, inside⟩ : ∃ h p, Reach step Orderly {} h p ∧ messages h = sent :=
    ⟨_, _,
      .step (e := (.request { reads := [.ok [65, 66]] } (.read 1000) : Event UInt8))
        (.step (e := (.request { opened := fun _ => .ok (3, .raw) }
          (.open ttyS0 [.active false]) : Event UInt8)) .start
          ⟨⟨rfl, trivial⟩, by intro bytes; simp [Event.os]⟩ rfl)
        ⟨⟨rfl, by decide⟩, by intro bytes; simp [Event.os]; rintro rfl; decide⟩ rfl, rfl⟩
  have wrote : Erlcmd.sendAll (((messages h).map Out.body).zip
      [[.ok 3, .error .eintr, .ok 100], [.ok 4096]]) =
        (Erlcmd.stream (sent.map Out.body), .ok ()) := by
    rw [inside]
    rfl
  obtain ⟨-, arrive⟩ := sent_delivered r _ (by rw [inside]; rfl) wrote
  rw [(arrive _ (List.prefix_refl _)).2 rfl rfl, inside]

end Program

end CircuitsUart
